import AccumulatorMachine.Instruction
import AccumulatorMachine.Position

/-!
# `AccumulatorMachine.Program`: sequences of instructions

A program is a sequence of instructions, numbered from `0`. It is
never changed in place: `toggle` gives a program of its own.

- `get` looks up an instruction, counted from either end;
- `toggle` swaps one instruction by cutting the program before and
  after it and putting the swapped one between the two parts. The cut
  after place `-1` is cut `0`, which lies before the first
  instruction, so there the whole program comes after the swapped
  instruction;
- `candidates` are the addresses of the instructions that may have
  been damaged, and `opcodeCounts` tallies the opcodes.
-/

set_option autoImplicit false

namespace AccumulatorMachine

/-- A sequence of instructions. -/
structure Program where
  instructions : Array Instruction
deriving DecidableEq, Repr

namespace Program

/-- The program of a list of instructions. -/
def ofList (instructions : List Instruction) : Program := ⟨instructions.toArray⟩

/-- The instructions in order. -/
def toList (p : Program) : List Instruction := p.instructions.toList

/-- The number of instructions. -/
def size (p : Program) : Nat := p.instructions.size

/-- A program is given by its instructions, so it can be made from a list
and read back as one. -/
@[simp]
theorem toList_ofList (instructions : List Instruction) :
    (ofList instructions).toList = instructions := rfl

/-- `size` is the length of the list of instructions, which is how proofs
over lists get at it. -/
@[simp]
theorem length_toList (p : Program) : p.toList.length = p.size := by
  simp [toList, size]

/-- Programs with the same instructions are the same. -/
theorem ext_toList {p q : Program} (h : p.toList = q.toList) : p = q := by
  obtain ⟨a⟩ := p
  obtain ⟨b⟩ := q
  simp only [toList, Array.toList_inj] at h
  rw [h]

/-! ### Single instructions -/

/-- The instruction at a place, counted from either end. -/
def get (p : Program) (i : Int) : Except PositionError Instruction := do
  let k ← position .instruction p.instructions.size i
  return p.instructions[k]

/-- The program with the instruction at a place swapped. If that
instruction cannot be swapped, the program comes back as it is. -/
def toggle (p : Program) (i : Int) : Except PositionError Program := do
  let instruction ← p.get i
  if instruction.isToggleable then
    let before := p.instructions.extract 0 (cutPoint p.size i)
    let after := p.instructions.extract (cutPoint p.size (i + 1)) p.size
    return ⟨before.push instruction.toggled ++ after⟩
  else
    return p

/-! ### Addresses and counts -/

/-- The addresses of the instructions that may have been damaged, in
ascending order. -/
def candidates (p : Program) : List Nat :=
  (p.toList.zipIdx.filter fun entry => entry.1.isToggleable).map (·.2)

/-- Count one more occurrence of an opcode; a new one goes to the end. -/
def tally (counts : List (Opcode × Nat)) (o : Opcode) : List (Opcode × Nat) :=
  match counts with
  | [] => [(o, 1)]
  | (k, n) :: rest => if k = o then (k, n + 1) :: rest else (k, n) :: tally rest o

/-- How often each opcode occurs, in the order in which they occur
first. -/
def opcodeCounts (p : Program) : List (Opcode × Nat) :=
  p.toList.foldl (fun counts i => tally counts i.opcode) []

end Program

end AccumulatorMachine
