import AccumulatorMachine.Machine
import AccumulatorMachine.Proofs.PlainMachine

/-!
# `AccumulatorMachine.Proofs.Turn`: what a turn comes to

A turn looks for an end and carries out an instruction if there is
none. With a mark for every address of the program neither can fail,
and `turn_cases` says all that can happen:

* the address is outside of the program or has a mark, and the machine
  ends with the outcome that `Program.outcomeAt` tells;
* the address is in the program and has no mark, and the machine moves
  to the state that `State.advance` tells.

`of_turn_moved` and `of_turn_ended` read the same from a turn that is
known to have moved or ended.

To the plain machine a move is a step (`configuration_advance`), and it
marks the address that it leaves and no other (`marked_advance_iff`).
-/

set_option autoImplicit false

namespace AccumulatorMachine

namespace Program

/-- The outcome of a machine that ends at a configuration. At an
address of the program it ends because it was there before. -/
def outcomeAt (p : Program) (c : Configuration) : Outcome :=
  if c.pc = p.size then .halted c.accumulator
  else if c.pc < 0 ∨ p.size < c.pc then .jumpOutOfBounds c.pc
  else .infiniteLoop c.accumulator

/-- Looking up an instruction from the front. -/
theorem get_eq_ok {p : Program} {pc : Int} {i : Instruction} (h : p.at? pc = some i) :
    p.get pc = .ok i := by
  obtain ⟨h₀, h₁⟩ := exists_at?_iff.mp ⟨i, h⟩
  -- From the front a place is the address itself.
  have hat : p.instructions[pc.toNat]? = some i := by
    rw [← Array.getElem?_toList]
    exact getElem?_of_at? h
  obtain ⟨hr, hi⟩ := Array.getElem?_eq_some_iff.mp hat
  have hpos := position_of_nonneg .instruction h₀ (n := p.instructions.size) h₁
  simp [get, hpos, bind, Except.bind, pure, Except.pure, hi]

/-- Access from the front finds the instruction of the list. -/
theorem get_natCast_eq_ok {p : Program} {k : Nat} {i : Instruction}
    (h : p.toList[k]? = some i) : p.get k = .ok i :=
  get_eq_ok (by rwa [at?_natCast])

end Program

namespace State

variable {p : Program} {s : State} {i : Instruction}

/-- What the plain machine sees of a state. -/
def configuration (s : State) : Configuration := ⟨s.pc, s.accumulator⟩

/-- Whether an address has a mark. -/
def Marked (s : State) (pc : Int) : Prop := 0 ≤ pc ∧ s.marks[pc.toNat]? = some true

/-- The state after an instruction has been carried out. -/
def advance (s : State) (i : Instruction) : State :=
  { pc := s.pc + i.effect.move
    accumulator := s.accumulator + i.effect.gain
    marks := s.marks.setIfInBounds s.pc.toNat true }

/-- Marks are set, but none is added or taken away. -/
@[simp]
theorem size_marks_advance (s : State) (i : Instruction) :
    (s.advance i).marks.size = s.marks.size := by
  simp [advance]

/-- To the plain machine a move is a step. -/
theorem configuration_advance (s : State) (i : Instruction) :
    (s.advance i).configuration = s.configuration.advance i := by
  rw [Configuration.advance_eq]
  rfl

/-- A move marks the address that it leaves and no other. -/
theorem marked_advance_iff (h₀ : 0 ≤ s.pc) (h₁ : s.pc < s.marks.size) {pc : Int} :
    (s.advance i).Marked pc ↔ s.Marked pc ∨ pc = s.pc := by
  by_cases hpc : pc = s.pc
  · subst hpc
    simp only [Marked, advance, h₀, true_and, or_true, iff_true]
    exact Array.getElem?_setIfInBounds_self_of_lt (by omega)
  · simp only [Marked, advance, hpc, or_false]
    refine and_congr_right fun hpc₀ => ?_
    rw [Array.getElem?_setIfInBounds_ne (by omega)]

/-- Before the first turn nothing has a mark. -/
theorem not_marked_initial (size : Nat) (a pc : Int) : ¬(initial size a).Marked pc := by
  rintro ⟨-, hmark⟩
  simp only [initial, Array.getElem?_replicate] at hmark
  split at hmark <;> cases hmark

/-- At an address of the program `check` reads the mark. -/
theorem check_of_at? (hs : p.size ≤ s.marks.size) (h : p.at? s.pc = some i) :
    ∃ b, s.marks[s.pc.toNat]? = some b ∧
      s.check p = .ok (if b then some (.infiniteLoop s.accumulator) else none) := by
  obtain ⟨h₀, h₁⟩ := Program.exists_at?_iff.mp ⟨i, h⟩
  have hr : s.pc.toNat < s.marks.size := by omega
  refine ⟨s.marks[s.pc.toNat], Array.getElem?_eq_getElem hr, ?_⟩
  -- Neither end applies, so `check` goes on to the mark.
  have hsize : ¬s.pc = p.size := by omega
  have hin : ¬(s.pc < 0 ∨ p.size < s.pc) := by omega
  simp [check, hsize, hin, position_of_nonneg .readMark h₀ (by omega : s.pc < s.marks.size),
    bind, Except.bind, pure, Except.pure]

/-- Outside of the program `check` finds an end. -/
theorem check_of_at?_eq_none (h : p.at? s.pc = none) :
    s.check p = .ok (some (p.outcomeAt s.configuration)) := by
  have hout := Program.at?_eq_none_iff.mp h
  unfold check
  split
  · rename_i hend
    simp [Program.outcomeAt, configuration, hend]
  · rename_i hend
    have hbounds : s.pc < 0 ∨ p.size < s.pc := by omega
    simp [Program.outcomeAt, configuration, hend, hbounds]

/-- At an address of the program `apply` cannot fail. -/
theorem apply_eq_ok (h₀ : 0 ≤ s.pc) (h₁ : s.pc < s.marks.size) (i : Instruction) :
    s.apply i = .ok (s.advance i) := by
  simp only [apply, position_of_nonneg .writeMark h₀ h₁, bind, Except.bind, pure, Except.pure,
    advance, Array.setIfInBounds, show s.pc.toNat < s.marks.size by omega, dif_pos]

/-- With a mark for every address of the program, a turn ends outside
of the program and at a marked address, and moves elsewhere. -/
theorem turn_cases (hs : p.size ≤ s.marks.size) :
    ((p.at? s.pc = none ∨ s.Marked s.pc)
      ∧ s.turn p = .ok (.ended (p.outcomeAt s.configuration)))
    ∨ ∃ i, p.at? s.pc = some i ∧ ¬s.Marked s.pc ∧ s.turn p = .ok (.moved i (s.advance i)) := by
  cases h : p.at? s.pc with
  | none =>
      left
      refine ⟨.inl rfl, ?_⟩
      simp only [turn, check_of_at?_eq_none h]
  | some i =>
      obtain ⟨h₀, h₁⟩ := Program.exists_at?_iff.mp ⟨i, h⟩
      obtain ⟨b, hb, hcheck⟩ := check_of_at? hs h
      -- The mark alone tells a second visit from a first one.
      cases b with
      | true =>
          left
          refine ⟨.inr ⟨h₀, hb⟩, ?_⟩
          have hout : p.outcomeAt s.configuration = .infiniteLoop s.accumulator := by
            have hsize : ¬s.pc = p.size := by omega
            have hin : ¬(s.pc < 0 ∨ p.size < s.pc) := by omega
            simp [Program.outcomeAt, configuration, hsize, hin]
          simp only [turn, hcheck, if_true, hout]
      | false =>
          right
          refine ⟨i, rfl, fun hm => ?_, ?_⟩
          · cases hb.symm.trans hm.2
          · simp [turn, hcheck, Program.get_eq_ok h, apply_eq_ok h₀ (by omega) i, bind,
              Except.bind, pure, Except.pure]

/-- With a mark for every address of the program, no turn fails. -/
theorem exists_turn (hs : p.size ≤ s.marks.size) : ∃ turn, s.turn p = .ok turn := by
  rcases turn_cases hs with ⟨-, hended⟩ | ⟨i, -, -, hmoved⟩
  · exact ⟨_, hended⟩
  · exact ⟨_, hmoved⟩

/-- A turn moves only at an unmarked address of the program. -/
theorem of_turn_moved {t : State} (hs : p.size ≤ s.marks.size)
    (h : s.turn p = .ok (.moved i t)) :
    p.at? s.pc = some i ∧ ¬s.Marked s.pc ∧ t = s.advance i := by
  rcases turn_cases hs with ⟨-, hended⟩ | ⟨j, hj, hm, hmoved⟩
  · cases h.symm.trans hended
  · cases h.symm.trans hmoved
    exact ⟨hj, hm, rfl⟩

/-- A turn ends only outside of the program or at a marked address. -/
theorem of_turn_ended {o : Outcome} (hs : p.size ≤ s.marks.size)
    (h : s.turn p = .ok (.ended o)) :
    (p.at? s.pc = none ∨ s.Marked s.pc) ∧ o = p.outcomeAt s.configuration := by
  rcases turn_cases hs with ⟨hend, hended⟩ | ⟨j, -, -, hmoved⟩
  · rw [h, Except.ok.injEq, Turn.ended.injEq] at hended
    exact ⟨hend, hended⟩
  · cases h.symm.trans hmoved

end State

end AccumulatorMachine
