import AccumulatorMachine.Text.CodeRanges
import AccumulatorMachine.Text.Runs

/-!
# `AccumulatorMachine.Text.Line`: the lines of a text

A line ends at any of ten characters. A carriage return with a line
feed after it counts as one end. `lines` gives the
contents of the lines without their ends; an end that closes the text
opens no further line. `unifyLineEnds` is what a text file goes
through when it is read: both spellings with a carriage return become
a line feed, and the other ends stay as they are.
-/

set_option autoImplicit false

namespace AccumulatorMachine.Text

/-- The characters that end a line. -/
def lineEndRanges : CodeRanges :=
  [(0x000A, 0x000D), (0x001C, 0x001E), (0x0085, 0x0085), (0x2028, 0x2029)]

/-- Whether the character ends a line. -/
def isLineEnd (c : Char) : Bool := lineEndRanges.contains c

/-- The contents of the lines of a text, without their ends. -/
def lines : List Char → List (List Char)
  | [] => []
  | '\r' :: '\n' :: rest => [] :: lines rest
  | c :: rest => if isLineEnd c then [] :: lines rest else extendHead c (lines rest)

/-- Write every carriage return, and every carriage return with the
line feed after it, as one line feed. -/
def unifyLineEnds : List Char → List Char
  | [] => []
  | '\r' :: '\n' :: rest => '\n' :: unifyLineEnds rest
  | '\r' :: rest => '\n' :: unifyLineEnds rest
  | c :: rest => c :: unifyLineEnds rest

end AccumulatorMachine.Text
