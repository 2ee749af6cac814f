import AccumulatorMachine.Listing
import AccumulatorMachine.Text.Blank
import AccumulatorMachine.Text.Line
import AccumulatorMachine.Text.Lowercase
import AccumulatorMachine.Text.Quoted

/-!
# `AccumulatorMachine.Listing.Reading`: from a listing to a program

Every line of a listing that is not blank has two columns, a mnemonic
in any case and an argument in decimal. `readLine` checks, in this
order, that there are two columns, that the second is an optional
sign and ASCII digits, that the first in lower case is a mnemonic,
and that the argument has no more digits than a numeral may have.

`Program.read` reads the lines that are not blank and stops at the
first one that is refused. Lines are numbered from `1`, blank ones
included; number `0` stands for a line that belongs to no listing,
and is left out of the message.
-/

set_option autoImplicit false

namespace AccumulatorMachine

open Text

/-- What is wrong with a line, and the text that shows it. -/
inductive LineFault where
  | columns (line : List Char)
  | argument (column : List Char)
  | mnemonic (column : List Char)
deriving DecidableEq, Repr

/-- The wording of a fault. -/
def LineFault.message : LineFault → String
  | .columns line => "did not find two columns: " ++ quoted line
  | .argument column => "couldn't parse argument: " ++ quoted column
  | .mnemonic column => "unknown instruction: " ++ quoted column

/-- A line that is refused: its fault, its number, and its whole text. -/
structure LineError where
  fault : LineFault
  number : Int
  line : List Char
deriving DecidableEq, Repr

/-- Why a listing is refused: a line is no instruction, or a numeral
is too long. -/
inductive ListingError where
  | line (error : LineError)
  | numeral (error : NumeralError)
deriving DecidableEq, Repr

/-- The wording, with the line number in front unless it is `0`. -/
def LineError.message (e : LineError) : String :=
  if e.number = 0 then e.fault.message
  else "line " ++ Numeral.unlimited e.number ++ ": " ++ e.fault.message

/-- Refuse a line. If its number is too long to be written, then that
is the failure. -/
def LineError.raise {α : Type} (e : LineError) : Except ListingError α :=
  if Numeral.fits e.number then .error (.line e) else .error (.numeral .tooLarge)

/-! ### One line -/

/-- The instruction of a line, or the fault of the line. -/
def readColumns (line : List Char) : Except LineFault (Opcode × Numeral.Scanned) :=
  match columns line with
  | [first, second] =>
    match Numeral.scan second with
    | none => .error (.argument second)
    | some argument =>
      let lowered := lowercase first
      match Opcode.ofMnemonic? (String.ofList lowered) with
      | none => .error (.mnemonic lowered)
      | some opcode => .ok (opcode, argument)
  | _ => .error (.columns (strip line))

/-- Read the instruction of a line. -/
def readLine (line : List Char) (number : Int) : Except ListingError Instruction :=
  match readColumns line with
  | .error fault => LineError.raise ⟨fault, number, line⟩
  | .ok (opcode, argument) =>
    match argument.value with
    | .ok n => .ok ⟨opcode, n⟩
    | .error limit => .error (.numeral limit)

/-! ### All lines -/

/-- Whether a line has nothing but blanks. -/
def isBlankLine (line : List Char) : Bool := line.all isBlank

/-- Read the lines that are not blank; the first has number `number`. -/
def readLines (number : Nat) : List (List Char) → Except ListingError (List Instruction)
  | [] => .ok []
  | line :: rest =>
    if isBlankLine line then readLines (number + 1) rest
    else do
      let instruction ← readLine line number
      return instruction :: (← readLines (number + 1) rest)

/-- Read a listing. -/
def Program.read (source : String) : Except ListingError Program := do
  return Program.ofList (← readLines 1 (lines source.toList))

end AccumulatorMachine
