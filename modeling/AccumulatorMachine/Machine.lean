import AccumulatorMachine.Outcome
import AccumulatorMachine.Program

/-!
# `AccumulatorMachine.Machine`: one turn of the machine

The machine holds the address of the next instruction, the
accumulator, and a mark for every address that it has been to. It
ends in one of three ways:

- the address is the one just past the program: it halts;
- the address is neither that one nor in the program: it jumped out;
- the address has a mark: the machine would go round forever, since
  nothing but the address decides where it goes next.

`State.check` looks for an end, `State.apply` carries out an
instruction, and `State.turn` does one after the other. A state is
any address with any marks, so looking up or setting a mark can fail;
a failed operation gives no state, and the old one is still there.

Every turn that moves sets a mark that was not set, so `unmarked`, the
number of addresses without a mark, bounds the turns that are left.
-/

set_option autoImplicit false

namespace AccumulatorMachine

/-- The state of a machine: the address of the next instruction, the
accumulator, and which addresses it has been to. -/
structure State where
  pc : Int
  accumulator : Int
  marks : Array Bool
deriving DecidableEq, Repr

/-- What a turn comes to: the machine has ended, or it carried out an
instruction and is in a new state. -/
inductive Turn where
  | ended (outcome : Outcome)
  | moved (instruction : Instruction) (next : State)
deriving DecidableEq, Repr

namespace State

/-- The state before the first turn of a program of `size`
instructions. -/
def initial (size : Nat) (accumulator : Int) : State :=
  { pc := 0, accumulator, marks := Array.replicate size false }

/-- How many marks are not set. -/
def unmarked (s : State) : Nat := s.marks.count false

/-- The outcome of a state that is an end, or nothing if the machine
may go on. -/
def check (p : Program) (s : State) : Except PositionError (Option Outcome) :=
  if s.pc = p.size then .ok (some (.halted s.accumulator))
  else if s.pc < 0 ∨ p.size < s.pc then .ok (some (.jumpOutOfBounds s.pc))
  else do
    let k ← position .readMark s.marks.size s.pc
    return if s.marks[k] then some (.infiniteLoop s.accumulator) else none

/-- Mark the address and carry out an instruction, whatever the state. -/
def apply (s : State) (i : Instruction) : Except PositionError State := do
  let k ← position .writeMark s.marks.size s.pc
  return {
    pc := s.pc + i.effect.move
    accumulator := s.accumulator + i.effect.gain
    marks := s.marks.set k true }

/-- Look for an end, and carry out the instruction at the address if
there is none. -/
def turn (p : Program) (s : State) : Except PositionError Turn :=
  match s.check p with
  | .error e => .error e
  | .ok (some outcome) => .ok (.ended outcome)
  | .ok none => do
    let i ← p.get s.pc
    return .moved i (← s.apply i)

/-! ### Turns use up the unmarked addresses -/

/-- A machine that may go on is at an address of the program that has
no mark. -/
theorem check_eq_none {p : Program} {s : State} (h : s.check p = .ok none) :
    0 ≤ s.pc ∧ s.pc < p.size ∧
      ∃ hr : s.pc.toNat < s.marks.size, s.marks[s.pc.toNat] = false := by
  unfold check at h
  split at h
  · simp at h
  · split at h
    · simp at h
    · rename_i h₁ h₂
      by_cases hr : s.pc < s.marks.size
      · rw [position_of_nonneg .readMark (by omega) hr] at h
        refine ⟨by omega, by omega, by omega, ?_⟩
        simpa [bind, Except.bind, pure, Except.pure] using h
      · have hn : ¬(0 ≤ s.pc ∧ s.pc < s.marks.size) := by omega
        have hn' : ¬(-(s.marks.size : Int) ≤ s.pc ∧ s.pc < 0) := by omega
        simp [position, hn, hn', bind, Except.bind] at h

/-- A turn that moves leaves fewer addresses without a mark. -/
theorem unmarked_lt_of_turn {p : Program} {s t : State} {i : Instruction}
    (h : s.turn p = .ok (.moved i t)) : t.unmarked < s.unmarked := by
  unfold turn at h
  split at h
  · simp at h
  · simp at h
  · rename_i hc
    obtain ⟨h₀, h₁, hr, hm⟩ := check_eq_none hc
    cases hg : p.get s.pc with
    | error e => simp [hg, bind, Except.bind] at h
    | ok j =>
      simp [hg, apply, position_of_nonneg .writeMark h₀ (by omega : s.pc < s.marks.size),
        bind, Except.bind, pure, Except.pure] at h
      obtain ⟨-, rfl⟩ := h
      have hpos : 0 < s.marks.count false := by
        rw [Array.count_pos_iff, ← hm]
        exact Array.getElem_mem _
      have hset (hs : s.pc.toNat < s.marks.size) :
          (s.marks.set s.pc.toNat true hs).count false = s.marks.count false - 1 := by
        rw [Array.count_set, hm, if_pos (by decide), if_neg (by decide), Nat.add_zero]
      simp only [unmarked, hset]
      omega

end State

end AccumulatorMachine
