/-!
# `AccumulatorMachine.Instruction`: three opcodes over one accumulator

An instruction has an opcode and an integer. What it does to the
machine is its `effect`: how much the accumulator gains and how far
the address moves. `acc` adds its argument, `jmp` moves by it, and
`nop` ignores it.

A damaged program has a `jmp` where a `nop` belongs or the other way
round. `toggled` swaps the two and keeps the argument; an `acc` is
never damaged and comes back as it is.
-/

set_option autoImplicit false

namespace AccumulatorMachine

/-- What an instruction is for. -/
inductive Opcode where
  | acc
  | jmp
  | nop
deriving DecidableEq, Repr

namespace Opcode

/-- The name in reports. -/
def name : Opcode → String
  | .acc => "ACC"
  | .jmp => "JMP"
  | .nop => "NOP"

/-- The name in listings. -/
def mnemonic : Opcode → String
  | .acc => "acc"
  | .jmp => "jmp"
  | .nop => "nop"

/-- Every opcode, in the order in which they are named to the user. -/
def all : List Opcode := [.acc, .jmp, .nop]

/-- The opcode of a name in listings. -/
def ofMnemonic? (text : String) : Option Opcode := all.find? fun o => o.mnemonic = text

/-- Swap `jmp` and `nop`. -/
def toggled : Opcode → Opcode
  | .acc => .acc
  | .jmp => .nop
  | .nop => .jmp

/-- Whether `toggled` changes the opcode. -/
def isToggleable : Opcode → Bool
  | .acc => false
  | .jmp => true
  | .nop => true

end Opcode

/-- One instruction of a program. -/
structure Instruction where
  opcode : Opcode
  argument : Int := 0
deriving DecidableEq, Repr

/-- What an instruction does: the gain of the accumulator and the
distance to the next address. -/
structure Effect where
  gain : Int
  move : Int
deriving DecidableEq, Repr

namespace Instruction

/-- The effect of an instruction. -/
def effect (i : Instruction) : Effect :=
  match i.opcode with
  | .acc => ⟨i.argument, 1⟩
  | .jmp => ⟨0, i.argument⟩
  | .nop => ⟨0, 1⟩

/-- Swap `jmp` and `nop` and keep the argument. -/
def toggled (i : Instruction) : Instruction := { i with opcode := i.opcode.toggled }

/-- Whether the instruction may have been damaged. -/
def isToggleable (i : Instruction) : Bool := i.opcode.isToggleable

/-- Two swaps undo each other. -/
@[simp]
theorem toggled_toggled (i : Instruction) : i.toggled.toggled = i := by
  obtain ⟨opcode, argument⟩ := i
  cases opcode <;> rfl

/-- A swap keeps an instruction among those that can be swapped. -/
@[simp]
theorem isToggleable_toggled (i : Instruction) : i.toggled.isToggleable = i.isToggleable := by
  obtain ⟨opcode, argument⟩ := i
  cases opcode <;> rfl

/-- A swap changes an instruction exactly if it may have been damaged. -/
theorem toggled_ne_iff (i : Instruction) : i.toggled ≠ i ↔ i.isToggleable = true := by
  obtain ⟨opcode, argument⟩ := i
  cases opcode <;> simp [toggled, isToggleable, Opcode.toggled, Opcode.isToggleable]

end Instruction

end AccumulatorMachine
