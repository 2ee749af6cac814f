import AccumulatorMachine.Numeral
import AccumulatorMachine.Program
import AccumulatorMachine.Text.Aligned

/-!
# `AccumulatorMachine.Listing`: programs as texts

An instruction is written as its mnemonic, a space, and its argument
with a sign; a zero has a plus sign. A listing has one instruction a
line, and every line is closed by a line feed. For people there is a
numbered form, in which each line begins with the address of its
instruction, four characters wide.

Writing fails if an argument has more digits than a numeral may have.
-/

set_option autoImplicit false

namespace AccumulatorMachine

/-- The text of an instruction. -/
def Instruction.text (i : Instruction) : Except NumeralError String := do
  return i.opcode.mnemonic ++ " " ++ (← Numeral.signed i.argument)

/-- The line of an instruction in a listing. -/
def Instruction.line (i : Instruction) : Except NumeralError String := do
  return (← i.text) ++ "\n"

namespace Program

/-- The listing of a program. -/
def listing (p : Program) : Except NumeralError String := do
  return String.join (← p.toList.mapM Instruction.line)

/-- One line of the numbered form. -/
def numberedLine (address : Nat) (i : Instruction) : Except NumeralError String := do
  return "  " ++ Text.alignRight 4 (← Numeral.plain address) ++ ": " ++ (← i.text)

/-- The numbered form of a program; no line feed after the last line. -/
def numbered (p : Program) : Except NumeralError String := do
  let lines ← p.toList.zipIdx.mapM fun entry => numberedLine entry.2 entry.1
  return "\n".intercalate lines

end Program

end AccumulatorMachine
