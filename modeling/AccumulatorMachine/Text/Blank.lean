import AccumulatorMachine.Text.CodeRanges
import AccumulatorMachine.Text.Runs

/-!
# `AccumulatorMachine.Text.Blank`: blank characters and the columns between them

A line of a listing is cut into columns at its blanks. Two classes
are told apart:

- `isWhiteSpace`, the property that the character standard calls by
  that name, strips the text of a number;
- `isBlank` has the four information separators `U+001C` to `U+001F`
  besides, and separates the columns of a line.

`columns` gives the maximal runs of characters that are not blank, in
order; `strip` drops the blanks at both ends.
-/

set_option autoImplicit false

namespace AccumulatorMachine.Text

/-! ### The two classes -/

/-- The white space of the character standard. -/
def whiteSpaceRanges : CodeRanges :=
  [(0x0009, 0x000D), (0x0020, 0x0020), (0x0085, 0x0085), (0x00A0, 0x00A0),
   (0x1680, 0x1680), (0x2000, 0x200A), (0x2028, 0x2029), (0x202F, 0x202F),
   (0x205F, 0x205F), (0x3000, 0x3000)]

/-- The four information separators. -/
def separatorRanges : CodeRanges := [(0x001C, 0x001F)]

/-- Whether the character is white space. -/
def isWhiteSpace (c : Char) : Bool := whiteSpaceRanges.contains c

/-- Whether the character separates columns: white space or an
information separator. -/
def isBlank (c : Char) : Bool := isWhiteSpace c || separatorRanges.contains c

/-- White space is blank. -/
theorem isBlank_of_isWhiteSpace {c : Char} (h : isWhiteSpace c = true) : isBlank c = true := by
  simp [isBlank, h]

/-! ### Stripping -/

/-- Drop the characters of a class at both ends. -/
def trim (drop : Char → Bool) (text : List Char) : List Char :=
  ((text.dropWhile drop).reverse.dropWhile drop).reverse

/-- Drop the blanks at both ends. -/
def strip (text : List Char) : List Char := trim isBlank text

/-! ### Columns -/

/-- Whether a column ends here: at a blank or at the end of the text. -/
def endsColumn : List Char → Bool
  | [] => true
  | c :: _ => isBlank c

/-- The maximal runs of characters that are not blank. A character
that is not blank opens a column of its own if the column ends right
after it, and otherwise belongs to the column that follows. -/
def columns : List Char → List (List Char)
  | [] => []
  | c :: rest =>
    if isBlank c then columns rest
    else if endsColumn rest then [c] :: columns rest
    else extendHead c (columns rest)

end AccumulatorMachine.Text
