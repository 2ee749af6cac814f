import AccumulatorMachine.Text.Printable

/-!
# `AccumulatorMachine.Text.Quoted`: texts as messages show them

A message shows a piece of its input between quotes, so that blanks
at its ends and characters that cannot be seen are told. `quoted`
uses single quotes, unless the text has single quotes and no double
ones. The quote in use and the backslash get a backslash in front;
tab, line feed and carriage return have their usual names; any other
character that is not printable is written by its code point in hex.
-/

set_option autoImplicit false

namespace AccumulatorMachine.Text

/-- The single quote. -/
def singleQuote : Char := '\x27'

/-- The double quote. -/
def doubleQuote : Char := '\x22'

/-- The quote that a text is shown in. -/
def quoteOf (text : List Char) : Char :=
  if text.contains singleQuote && !text.contains doubleQuote then doubleQuote else singleQuote

/-- At least `width` hex digits of a number, in lower case. -/
def hexDigits (width n : Nat) : List Char :=
  let digits := Nat.toDigits 16 n
  List.replicate (width - digits.length) '0' ++ digits

/-- A character that is not printable, by its code point: two, four
or eight hex digits, the fewest that hold it. -/
def escapeCode (code : Nat) : List Char :=
  if code < 0x100 then ['\\', 'x'] ++ hexDigits 2 code
  else if code < 0x10000 then ['\\', 'u'] ++ hexDigits 4 code
  else ['\\', 'U'] ++ hexDigits 8 code

/-- A character inside quotes. -/
def escape (quote c : Char) : List Char :=
  if c = quote || c = '\\' then ['\\', c]
  else if c = '\t' then ['\\', 't']
  else if c = '\n' then ['\\', 'n']
  else if c = '\r' then ['\\', 'r']
  else if isPrintable c then [c]
  else escapeCode c.toNat

/-- A text between quotes. -/
def quoted (text : List Char) : String :=
  let quote := quoteOf text
  String.ofList (quote :: text.flatMap (escape quote) ++ [quote])

end AccumulatorMachine.Text
