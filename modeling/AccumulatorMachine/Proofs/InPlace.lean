import AccumulatorMachine.Proofs.Swap

/-!
# `AccumulatorMachine.Proofs.InPlace`: operations on a machine that is changed in place

A failed operation gives no state. Whoever keeps a machine and changes it
in place finds a state there all the same: what was changed before the
failure stays changed. The operations of `InPlace` make their changes one
by one, the mark first, then the accumulator, then the address.

`Operation.run_perform` says that they leave the state that `State.check`,
`State.turn` and `State.apply` tell, and the old one where these fail. Only
the mark can be missing, and nothing was changed before it is looked for.
So an operation is carried out as a whole or not at all.

This holds of any state, with more or fewer marks than instructions and at
any address. An instruction that is carried out at a negative address sets
a mark counted from the end. `Operation.result_cases` says all that an
operation does to a state, and from it `Operation.keeps_leaveAll` says what
operations do to the marks, one after the other: there are as many as
before, and none is taken back.
-/

set_option autoImplicit false

namespace AccumulatorMachine

/-! ### Changes in place -/

/-- Computations on a machine that is changed in place. What was changed
before a failure stays changed. -/
abbrev InPlace (α : Type) : Type := EStateM PositionError State α

namespace InPlace

/-- End as an operation ends and change nothing. -/
def ofExcept {α : Type} : Except PositionError α → InPlace α
  | .ok a => pure a
  | .error e => throw e

/-- Look for an end. -/
def check (p : Program) : InPlace (Option Outcome) := do
  ofExcept ((← get).check p)

/-- Set the mark at the address. -/
def mark : InPlace Unit := do
  let s ← get
  let ⟨k, hk⟩ ← ofExcept (position .writeMark s.marks.size s.pc)
  set { s with marks := s.marks.set k true hk }

/-- Add to the accumulator. -/
def gain (n : Int) : InPlace Unit := modify fun s => { s with accumulator := s.accumulator + n }

/-- Move the address. -/
def move (n : Int) : InPlace Unit := modify fun s => { s with pc := s.pc + n }

/-- Set the mark at the address, and then carry out an instruction. -/
def apply (i : Instruction) : InPlace Unit := do
  mark
  match i.opcode with
  | .acc =>
    gain i.argument
    move 1
  | .jmp => move i.argument
  | .nop => move 1

/-- Look for an end, and carry out the instruction at the address if
there is none. -/
def step (p : Program) : InPlace (Option Outcome) := do
  match ← check p with
  | some outcome => return some outcome
  | none =>
    let i ← ofExcept (p.get (← get).pc)
    apply i
    return none

end InPlace

/-- An operation on a machine: look for an end, take a turn, or carry out
an instruction whatever the state. -/
inductive Operation where
  | check
  | step
  | apply (i : Instruction)
deriving DecidableEq, Repr

namespace Operation

/-- What an operation finds, if it looks for an end, and the state that it
gives. -/
def result (p : Program) (s : State) : Operation → Except PositionError (Option Outcome × State)
  | .check => (s.check p).map fun found => (found, s)
  | .step => (s.turn p).map fun turn =>
    match turn with
    | .ended outcome => (some outcome, s)
    | .moved _ t => (none, t)
  | .apply i => (s.apply i).map fun t => (none, t)

/-- What an operation does to a machine in place. -/
def perform (p : Program) : Operation → InPlace (Option Outcome)
  | .check => InPlace.check p
  | .step => InPlace.step p
  | .apply i => do
    InPlace.apply i
    return none

/-- The state that an operation leaves, also if it fails. -/
def leave (p : Program) (s : State) (op : Operation) : State :=
  match (op.perform p).run s with
  | .ok _ t => t
  | .error _ t => t

/-- The state that operations leave, one after the other. One that fails
does not keep the next one from being performed. -/
def leaveAll (p : Program) (s : State) (ops : List Operation) : State := ops.foldl (leave p) s

/-- Whether an operation looks for a mark where there is none. To find an
end, marks are read from the front and within the program; to carry out an
instruction, one is set at any address, from the end if it is negative. -/
def Misses (p : Program) (s : State) : Operation → Prop
  | .apply _ => s.pc < -(s.marks.size : Int) ∨ (s.marks.size : Int) ≤ s.pc
  | _ => (s.marks.size : Int) ≤ s.pc ∧ s.pc < p.size

end Operation

/-- Whether carrying out an instruction leads from one state to another:
the mark at the address, counted from either end, is set and no other one
is changed. -/
structure State.CarriedOut (s : State) (i : Instruction) (t : State) : Prop where
  pc : t.pc = s.pc + i.effect.move
  accumulator : t.accumulator = s.accumulator + i.effect.gain
  size : t.marks.size = s.marks.size
  mark : ∃ k : Nat, (k : Int) = s.pc % s.marks.size ∧ t.marks[k]? = some true
    ∧ ∀ j, j ≠ k → t.marks[j]? = s.marks[j]?

variable {α : Type} {p : Program} {s t : State} {i : Instruction} {e : PositionError}

/-! ### States that are given -/

/-- The place of an integer is its remainder by the number of entries. -/
theorem position_cases (access : Access) (n : Nat) (i : Int) :
    ((i < -(n : Int) ∨ (n : Int) ≤ i) ∧ ∃ e, position access n i = .error e)
    ∨ (¬(i < -(n : Int) ∨ (n : Int) ≤ i)
      ∧ ∃ k : Fin n, position access n i = .ok k ∧ (k : Int) = i % n) := by
  by_cases h : -(n : Int) ≤ i ∧ i < n
  · refine .inr ⟨by omega, ?_⟩
    rcases Int.lt_or_le i 0 with hneg | hnonneg
    · refine ⟨_, position_of_neg access h.1 hneg, ?_⟩
      rw [← Int.add_emod_left, Int.emod_eq_of_lt (by omega) (by omega)]
      exact Int.toNat_of_nonneg (by omega)
    · refine ⟨_, position_of_nonneg access hnonneg h.2, ?_⟩
      rw [Int.emod_eq_of_lt hnonneg h.2]
      exact Int.toNat_of_nonneg hnonneg
  · refine .inl ⟨by omega, ?_⟩
    cases hpos : position access n i with
    | ok k => exact absurd ((position_eq_ok_iff access).mp ⟨k, hpos⟩) h
    | error e => exact ⟨e, rfl⟩

namespace State

/-- An instruction finds no mark for the address, which is an error, or it
is carried out with the mark that it finds. -/
theorem apply_cases (p : Program) (s : State) (i : Instruction) :
    ((Operation.apply i).Misses p s ∧ ∃ e, s.apply i = .error e)
    ∨ (¬(Operation.apply i).Misses p s ∧ ∃ t, s.apply i = .ok t ∧ s.CarriedOut i t) := by
  rcases position_cases .writeMark s.marks.size s.pc with ⟨hmisses, e, h⟩ | ⟨hfinds, k, h, hk⟩
  · refine .inl ⟨hmisses, e, ?_⟩
    rw [apply, h]
    rfl
  · have happly : s.apply i = .ok
        { pc := s.pc + i.effect.move
          accumulator := s.accumulator + i.effect.gain
          marks := s.marks.set k true } := by
      rw [apply, h]
      rfl
    refine .inr ⟨hfinds, _, happly, rfl, rfl, Array.size_set k.isLt, k, hk, ?_, fun j hj => ?_⟩
    · exact Array.getElem?_set_self k.isLt
    · exact Array.getElem?_set_ne k.isLt hj.symm

/-- The look for an end finds no mark where one has to be read, which is an
error, or it tells whether there is an end. -/
theorem check_cases (p : Program) (s : State) :
    (Operation.check.Misses p s ∧ ∃ e, s.check p = .error e)
    ∨ (¬Operation.check.Misses p s ∧ ∃ found, s.check p = .ok found) := by
  have hmisses : Operation.check.Misses p s ↔ (s.marks.size : Int) ≤ s.pc ∧ s.pc < p.size := .rfl
  rw [hmisses]
  unfold check
  split
  · exact .inr ⟨by omega, _, rfl⟩
  · split
    · exact .inr ⟨by omega, _, rfl⟩
    · rcases position_cases .readMark s.marks.size s.pc with ⟨hout, e, h⟩ | ⟨hin, k, h, -⟩
      · rw [h]
        exact .inl ⟨by omega, e, rfl⟩
      · rw [h]
        exact .inr ⟨by omega, _, rfl⟩

/-- A machine that may go on finds an instruction and a mark. -/
theorem turn_of_check_eq_none (h : s.check p = .ok none) :
    ∃ i t, p.get s.pc = .ok i ∧ s.apply i = .ok t ∧ s.CarriedOut i t
      ∧ s.turn p = .ok (.moved i t) := by
  obtain ⟨h₀, h₁, hmarks, -⟩ := check_eq_none h
  obtain ⟨i, hi⟩ := Program.exists_at?_iff.mpr ⟨h₀, h₁⟩
  have hget : p.get s.pc = .ok i := Program.get_eq_ok hi
  rcases s.apply_cases p i with ⟨hmisses, -⟩ | ⟨-, t, happly, hcarried⟩
  · unfold Operation.Misses at hmisses
    omega
  · refine ⟨i, t, hget, happly, hcarried, ?_⟩
    simp only [turn, h, hget, happly, bind, Except.bind, pure, Except.pure]

/-- No mark is taken back. -/
theorem CarriedOut.getElem?_marks (h : s.CarriedOut i t) {k : Nat}
    (hk : s.marks[k]? = some true) : t.marks[k]? = some true := by
  obtain ⟨j, -, hset, helse⟩ := h.mark
  by_cases hkj : k = j
  · rw [hkj, hset]
  · rw [helse k hkj, hk]

end State

/-- An operation fails where it misses a mark. Otherwise it has looked for
an end and gives the state back, or it has carried out an instruction. -/
theorem Operation.result_cases (p : Program) (s : State) (op : Operation) :
    (op.Misses p s ∧ ∃ e, op.result p s = .error e)
    ∨ (¬op.Misses p s ∧ ∃ found, op.result p s = .ok (found, s)
        ∧ (op = .check ∨ op = .step ∧ found ≠ none))
    ∨ (¬op.Misses p s ∧ ∃ i t, op.result p s = .ok (none, t) ∧ s.CarriedOut i t
        ∧ (op = .apply i ∨ op = .step ∧ p.get s.pc = .ok i)) := by
  cases op with
  | check =>
      rcases s.check_cases p with ⟨hmisses, e, h⟩ | ⟨hfinds, found, h⟩
      · exact .inl ⟨hmisses, e, by rw [result, h]; rfl⟩
      · exact .inr (.inl ⟨hfinds, found, by rw [result, h]; rfl, .inl rfl⟩)
  | step =>
      -- A turn misses a mark where the look for an end does.
      rcases s.check_cases p with ⟨hmisses, e, h⟩ | ⟨hfinds, found, h⟩
      · exact .inl ⟨hmisses, e, by rw [result, State.turn, h]; rfl⟩
      · cases found with
        | some outcome =>
            exact .inr (.inl ⟨hfinds, some outcome, by rw [result, State.turn, h]; rfl,
              .inr ⟨rfl, by simp⟩⟩)
        | none =>
            obtain ⟨i, t, hget, -, hcarried, hturn⟩ := State.turn_of_check_eq_none h
            exact .inr (.inr ⟨hfinds, i, t, by rw [result, hturn]; rfl, hcarried,
              .inr ⟨rfl, hget⟩⟩)
  | apply i =>
      rcases s.apply_cases p i with ⟨hmisses, e, h⟩ | ⟨hfinds, t, h, hcarried⟩
      · exact .inl ⟨hmisses, e, by rw [result, h]; rfl⟩
      · exact .inr (.inr ⟨hfinds, i, t, by rw [result, h]; rfl, hcarried, .inl rfl⟩)

/-! ### States that are left -/

namespace InPlace

/-- A value leaves the state alone. -/
@[simp]
theorem run_ofExcept_ok (a : α) (s : State) : (ofExcept (.ok a)).run s = .ok a s := rfl

/-- So does an error. -/
@[simp]
theorem run_ofExcept_error (e : PositionError) (s : State) :
    (ofExcept (.error e) : InPlace α).run s = .error e s := rfl

/-- The look for an end reads the state and changes nothing. -/
theorem run_check (p : Program) (s : State) : (check p).run s = (ofExcept (s.check p)).run s := rfl

/-- A mark is set, and nothing else is changed. -/
theorem run_mark_of_ok {k : Fin s.marks.size}
    (h : position .writeMark s.marks.size s.pc = .ok k) :
    mark.run s = .ok () { s with marks := s.marks.set k true k.isLt } := by
  simp [mark, EStateM.run_bind, h]

/-- A mark that misses is not set anywhere. -/
theorem run_mark_of_error (h : position .writeMark s.marks.size s.pc = .error e) :
    mark.run s = .error e s := by
  simp [mark, EStateM.run_bind, h]

/-- Only the mark can be missing, and it comes first. -/
theorem run_apply (i : Instruction) (s : State) :
    (apply i).run s = match s.apply i with
      | .ok t => .ok () t
      | .error e => .error e s := by
  cases h : position .writeMark s.marks.size s.pc with
  | error e =>
      rw [apply, EStateM.run_bind, run_mark_of_error h, State.apply, h]
      rfl
  | ok k =>
      rw [apply, EStateM.run_bind, run_mark_of_ok h, State.apply, h]
      obtain ⟨opcode, n⟩ := i
      cases opcode with
      | acc => rfl
      | jmp => simp [move, Instruction.effect, bind, Except.bind, pure, Except.pure]
      | nop => simp [move, Instruction.effect, bind, Except.bind, pure, Except.pure]

/-- A step in place is a turn on values: both end a run, move on and fail at
the same states. -/
theorem run_step (p : Program) (s : State) :
    (step p).run s = match s.turn p with
      | .ok (.ended outcome) => .ok (some outcome) s
      | .ok (.moved _ t) => .ok none t
      | .error e => .error e s := by
  rw [step, EStateM.run_bind, run_check]
  cases h : s.check p with
  | error e =>
      rw [State.turn, h]
      rfl
  | ok found =>
      cases found with
      | some outcome =>
          rw [State.turn, h]
          rfl
      | none =>
          obtain ⟨i, t, hget, happly, -, hturn⟩ := State.turn_of_check_eq_none h
          rw [hturn]
          simp only [run_ofExcept_ok, EStateM.run_bind, EStateM.run_get, hget, run_apply, happly,
            EStateM.run_pure]

end InPlace

namespace Operation

/-- An operation leaves the state that it gives, and the one before if it
fails. -/
theorem run_perform (p : Program) (s : State) (op : Operation) :
    (op.perform p).run s = match op.result p s with
      | .ok (found, t) => .ok found t
      | .error e => .error e s := by
  cases op with
  | check =>
      rw [perform, InPlace.run_check, result]
      cases s.check p with
      | error e => rfl
      | ok found => rfl
  | step =>
      rw [perform, InPlace.run_step, result]
      cases s.turn p with
      | error e => rfl
      | ok turn =>
          cases turn with
          | ended outcome => rfl
          | moved i t => rfl
  | apply i =>
      rw [perform, EStateM.run_bind, InPlace.run_apply, result]
      cases s.apply i with
      | error e => rfl
      | ok t => rfl

/-- An operation that fails leaves the state as it was, although its parts
change the state one after the other: the only part that can fail comes
first. -/
theorem run_perform_eq_error_iff {op : Operation} :
    (op.perform p).run s = .error e t ↔ op.result p s = .error e ∧ t = s := by
  rw [run_perform]
  cases op.result p s with
  | error e' => simp [eq_comm]
  | ok r => simp

/-- An operation that does not fail has the state of its result. -/
theorem run_perform_eq_ok_iff {op : Operation} {found : Option Outcome} :
    (op.perform p).run s = .ok found t ↔ op.result p s = .ok (found, t) := by
  rw [run_perform]
  cases op.result p s with
  | error e => simp
  | ok r => simp [Prod.ext_iff]

/-- One operation leaves the state as it is or carries out an
instruction. -/
theorem leave_cases (p : Program) (s : State) (op : Operation) :
    leave p s op = s ∨ ∃ i, s.CarriedOut i (leave p s op) := by
  unfold leave
  rw [run_perform]
  rcases result_cases p s op with ⟨-, e, h⟩ | ⟨-, found, h, -⟩ | ⟨-, i, t, h, hcarried, -⟩
  · exact .inl (by rw [h])
  · exact .inl (by rw [h])
  · exact .inr ⟨i, by rw [h]; exact hcarried⟩

/-- Whether a state has as many marks as another one and all that were
set. -/
def Keeps (s t : State) : Prop :=
  t.marks.size = s.marks.size ∧ ∀ k : Nat, s.marks[k]? = some true → t.marks[k]? = some true

/-- An operation takes no mark back, whether it fails or not. -/
theorem keeps_leave (p : Program) (s : State) (op : Operation) : Keeps s (leave p s op) := by
  rcases leave_cases p s op with h | ⟨i, h⟩
  · rw [h]
    exact ⟨rfl, fun _ => id⟩
  · exact ⟨h.size, fun _ => h.getElem?_marks⟩

/-- Nor do operations one after the other. -/
theorem keeps_leaveAll (p : Program) (s : State) (ops : List Operation) :
    Keeps s (leaveAll p s ops) := by
  induction ops generalizing s with
  | nil => exact ⟨rfl, fun _ => id⟩
  | cons op ops ih =>
      have hop := keeps_leave p s op
      have hops := ih (leave p s op)
      exact ⟨hops.1.trans hop.1, fun k hk => hops.2 k (hop.2 k hk)⟩

end Operation

namespace Program

/-- Take any state, at any address and with any marks. Looking for an end
and taking a turn fail exactly at the addresses of the program that have no
mark, and carrying out an instruction fails exactly where no mark can be
counted from either end. An operation that fails, a look for an end, and a
turn that finds one leave the state as it was. Every other operation leads
to the state in which the instruction has been carried out: the mark at
the remainder of the address is set and no other one is changed. So there
are as many marks after any operations as before, and a mark that was set
at any time stays set. -/
theorem operations_atomic (p : Program) (s : State) :
    (∀ op : Operation,
      ((∃ e t, (op.perform p).run s = .error e t) ↔ op.Misses p s)
      ∧ (∀ e t, (op.perform p).run s = .error e t → op.result p s = .error e ∧ t = s)
      ∧ ∀ found t, (op.perform p).run s = .ok found t → op.result p s = .ok (found, t)
        ∧ if op = .check ∨ op = .step ∧ found ≠ none then t = s
          else ∃ i, (op = .apply i ∨ op = .step ∧ p.get s.pc = .ok i) ∧ s.CarriedOut i t)
    ∧ ∀ before rest : List Operation,
      (Operation.leaveAll p s (before ++ rest)).marks.size = s.marks.size
      ∧ ∀ k : Nat, (Operation.leaveAll p s before).marks[k]? = some true →
          (Operation.leaveAll p s (before ++ rest)).marks[k]? = some true := by
  refine ⟨fun op => ⟨?_, fun e t h => Operation.run_perform_eq_error_iff.mp h, fun found t h => ?_⟩,
    fun before rest => ⟨(Operation.keeps_leaveAll p s _).1, ?_⟩⟩
  · simp only [Operation.run_perform_eq_error_iff]
    -- Of the three cases only the first one is a failure.
    rcases op.result_cases p s with ⟨hmisses, e, h⟩ | ⟨hfinds, found, h, -⟩ | ⟨hfinds, i, t, h, -⟩
    · exact iff_of_true ⟨e, s, h, rfl⟩ hmisses
    · exact iff_of_false (by simp [h]) hfinds
    · exact iff_of_false (by simp [h]) hfinds
  · have hresult := Operation.run_perform_eq_ok_iff.mp h
    refine ⟨hresult, ?_⟩
    rcases op.result_cases p s with
      ⟨-, e, h'⟩ | ⟨-, found', h', hlooked⟩ | ⟨-, i, u, h', hcarried, hop⟩
    · -- The operation gave a value, so it is not the case of a failure.
      cases hresult.symm.trans h'
    · cases hresult.symm.trans h'
      rw [if_pos hlooked]
    · cases hresult.symm.trans h'
      rw [if_neg]
      · exact ⟨i, hop, hcarried⟩
      · rcases hop with rfl | ⟨rfl, -⟩ <;> simp
  · -- What was set after the first operations stays set through the others.
    have happend : Operation.leaveAll p s (before ++ rest)
        = Operation.leaveAll p (Operation.leaveAll p s before) rest := List.foldl_append
    rw [happend]
    exact (Operation.keeps_leaveAll p _ rest).2

/-- Three marks for a program of nine instructions. At address `5` a look
for an end fails. At `-2` an instruction sets the mark at `1`, and the mark
is still set after a failed turn and another instruction. -/
theorem operations_atomic_demonstration :
    (∃ e t, (Operation.check.perform demonstration).run ⟨5, 7, #[false, false, true]⟩ = .error e t
      ∧ t = ⟨5, 7, #[false, false, true]⟩)
    ∧ (∃ found t, ((Operation.apply ⟨.acc, 3⟩).perform demonstration).run
          ⟨-2, 7, #[false, false, true]⟩ = .ok found t
        ∧ State.CarriedOut ⟨-2, 7, #[false, false, true]⟩ ⟨.acc, 3⟩ t)
    ∧ (Operation.leaveAll demonstration ⟨-2, 7, #[false, false, true]⟩
        ([.apply ⟨.jmp, 7⟩] ++ [.step, .apply ⟨.nop, 0⟩])).marks[1]? = some true := by
  obtain ⟨hlow, -⟩ := operations_atomic demonstration ⟨5, 7, #[false, false, true]⟩
  obtain ⟨hneg, hmarks⟩ := operations_atomic demonstration ⟨-2, 7, #[false, false, true]⟩
  have hcheck : (Operation.check.perform demonstration).run ⟨5, 7, #[false, false, true]⟩
      = .error (.outOfRange .readMark) ⟨5, 7, #[false, false, true]⟩ := rfl
  have happly : ((Operation.apply ⟨.acc, 3⟩).perform demonstration).run
      ⟨-2, 7, #[false, false, true]⟩ = .ok none ⟨-1, 10, #[false, true, true]⟩ := rfl
  have hset : (Operation.leaveAll demonstration ⟨-2, 7, #[false, false, true]⟩
      [.apply ⟨.jmp, 7⟩]).marks[1]? = some true := rfl
  obtain ⟨-, -, hok⟩ := hneg (.apply ⟨.acc, 3⟩)
  obtain ⟨-, hcarried⟩ := hok _ _ happly
  rw [if_neg (by decide)] at hcarried
  obtain ⟨i, hi, hcarried⟩ := hcarried
  obtain rfl : i = ⟨.acc, 3⟩ := by simpa [eq_comm] using hi
  exact ⟨⟨_, _, hcheck, ((hlow .check).2.1 _ _ hcheck).2⟩, ⟨_, _, happly, hcarried⟩,
    (hmarks [.apply ⟨.jmp, 7⟩] [.step, .apply ⟨.nop, 0⟩]).2 1 hset⟩

end Program

end AccumulatorMachine
