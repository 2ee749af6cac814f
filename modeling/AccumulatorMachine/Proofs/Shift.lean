import AccumulatorMachine.Proofs.Verbose

/-!
# `AccumulatorMachine.Proofs.Shift`: the accumulator at the start shifts the accumulators

No instruction looks at the accumulator, so a run with more in it at the
start takes the same way with as much more in it everywhere. `shift` adds
a number to all accumulators of a step, an outcome and a trace, and to
nothing else: addresses, instructions and the number of steps stay as
they are.

What the plain machine does under a shift (`after_shift`) carries over to
the marks (`passed_shift_iff`), to the place where a run stops
(`StopsAt.shift`), to the steps until there (`steps_shift`) and to the
trace as a whole (`quietTrace_shift`).

A search makes its attempts from accumulator `0`, whatever accumulator
the settings hold. The repair that it finds is one for every
accumulator: `initial_accumulator_shifts` tells what the repaired
program ends with.
-/

set_option autoImplicit false

namespace AccumulatorMachine

/-- The step with more in the accumulator before and after it. -/
def Step.shift (s : Step) (a : Int) : Step :=
  { s with before := s.before + a, after := s.after + a }

/-- The outcome with more in the accumulator, if it tells one. -/
def Outcome.shift : Outcome → Int → Outcome
  | .halted b, a => .halted (b + a)
  | .infiniteLoop b, a => .infiniteLoop (b + a)
  | .jumpOutOfBounds pc, _ => .jumpOutOfBounds pc

/-- The trace with more in all accumulators. -/
def Trace.shift (t : Trace) (a : Int) : Trace :=
  { steps := t.steps.map (·.shift a), outcome := t.outcome.shift a }

/-- The step from a configuration with more in the accumulator. -/
theorem Step.ofConfiguration_shift (index : Int) (c : Configuration) (i : Instruction)
    (a : Int) :
    Step.ofConfiguration index (c.shift a) i = (Step.ofConfiguration index c i).shift a := by
  simp only [ofConfiguration, Configuration.advance_shift]
  rfl

namespace Program

variable {p : Program} {c d : Configuration} {k n : Nat}

/-! ### Runs under a shift -/

/-- The plain machine passes the same addresses. -/
theorem passed_shift_iff {a pc : Int} : p.Passed (c.shift a) n pc ↔ p.Passed c n pc := by
  constructor
  · rintro ⟨k, hk, e, he, rfl⟩
    obtain ⟨e', he', rfl⟩ := exists_eq_shift_of_after_shift he
    exact ⟨k, hk, e', he', rfl⟩
  · rintro ⟨k, hk, e, he, rfl⟩
    exact ⟨k, hk, e.shift a, after_shift_eq_some_iff.mpr he, rfl⟩

/-- The machine stops after as many steps, at the same address. -/
theorem StopsAt.shift (h : p.StopsAt c n d) (a : Int) :
    p.StopsAt (c.shift a) n (d.shift a) where
  reached := after_shift_eq_some_iff.mpr h.reached
  fresh := by
    intro k hk e he
    obtain ⟨e', he', rfl⟩ := exists_eq_shift_of_after_shift he
    rw [Configuration.pc_shift, passed_shift_iff]
    exact h.fresh k hk e' he'
  ended := by
    rw [Configuration.pc_shift, passed_shift_iff]
    exact h.ended

/-- The steps are the same but for the accumulators. -/
theorem steps_shift (p : Program) (k n : Nat) (c : Configuration) (a : Int) :
    p.steps k n (c.shift a) = (p.steps k n c).map (·.shift a) := by
  induction k generalizing n c with
  | zero => rfl
  | succ k ih =>
      cases hi : p.at? c.pc with
      | none => simp only [steps, Configuration.pc_shift, hi, List.map_nil]
      | some i =>
          simp only [steps, Configuration.pc_shift, hi, List.map_cons,
            Step.ofConfiguration_shift, Configuration.advance_shift, ih]

/-- The outcome of a place is told by its address, so it shifts along. -/
theorem outcomeAt_shift (p : Program) (d : Configuration) (a : Int) :
    p.outcomeAt (d.shift a) = (p.outcomeAt d).shift a := by
  unfold outcomeAt
  rw [Configuration.pc_shift]
  split
  · rfl
  · split <;> rfl

/-- A run from `b` is the one from `a`, shifted by the difference. -/
theorem quietTrace_shift (p : Program) (a b : Int) :
    p.quietTrace b = (p.quietTrace a).shift (b - a) := by
  obtain ⟨k, d, hstop, htrace⟩ := p.exists_stopsAt_quietTrace a
  obtain ⟨k', d', hstop', htrace'⟩ := p.exists_stopsAt_quietTrace b
  have hstart : (⟨0, b⟩ : Configuration) = (⟨0, a⟩ : Configuration).shift (b - a) :=
    Configuration.eq_shift_of_pc_eq rfl
  rw [hstart] at hstop' htrace'
  -- Both runs stop after `k` steps, the one from `b` at the shifted `d`.
  obtain ⟨rfl, rfl⟩ := (hstop.shift (b - a)).unique hstop'
  rw [htrace', htrace, steps_shift, outcomeAt_shift]
  rfl

/-- So does its outcome: it is of the same kind, and its accumulator is
shifted. -/
theorem outcome_shift (p : Program) (a b : Int) :
    p.outcome b = (p.outcome a).shift (b - a) := by
  rw [outcome, quietTrace_shift p a b]
  rfl

/-- The traces of quiet runs from two accumulators differ by a shift.
So whatever accumulator the settings hold, a search does the same, and
if it finds a repair that ends with `r`, the repaired program ends from
every accumulator `a` with `r + a`. -/
theorem initial_accumulator_shifts (p : Program) :
    (∀ a b workers, ∃ t, (p.trace { initial := a, workers }).ending = .ok t
      ∧ (p.trace { initial := b, workers }).ending = .ok (t.shift (b - a)))
    ∧ (∀ settings a, p.repair { settings with initial := a } = p.repair settings)
    ∧ ∀ settings index r made,
        (p.repair settings).ending = .ok (.repaired index r made) →
        ∃ q, p.toggle index = .ok q
          ∧ ∀ a workers, (q.execute { initial := a, workers }).ending = .ok (.halted (r + a)) := by
  refine ⟨fun a b workers => ⟨p.quietTrace a, ?_, ?_⟩, p.repair_initial, ?_⟩
  · rw [trace_quiet]
  · rw [trace_quiet, quietTrace_shift p a b]
  · intro settings index r made hrepair
    obtain ⟨i, rfl, ⟨⟨x, hx, -⟩, n, hn⟩, -⟩ := lowestRepair_of_ending_repair hrepair
    refine ⟨p.swapAt i, toggle_eq_ok hx, fun a workers => ?_⟩
    -- The attempt of the search ran from `0`.
    rw [← size_swapAt p i] at hn
    have hzero : (p.swapAt i).outcome 0 = .halted r := outcome_eq_halted_iff.mpr ⟨n, hn⟩
    rw [execute_quiet, outcome_shift _ 0 a, hzero, Int.sub_zero]
    rfl

/-- A search on the demonstration with `100` in the settings finds the
repair at `7` with `8`. So from `-30` the repaired program ends with
`-22`. -/
theorem initial_accumulator_shifts_demonstration :
    (demonstration.repair { initial := 100, workers := 3 }).ending = .ok (.repaired 7 8 4)
      ∧ ∃ q, demonstration.toggle 7 = .ok q
        ∧ (q.execute { initial := -30, workers := 0 }).ending = .ok (.halted (-22)) := by
  have hrepair : (demonstration.repair { initial := 100, workers := 3 }).ending
      = .ok (.repaired 7 8 4) := by cbv
  obtain ⟨-, -, hrepaired⟩ := initial_accumulator_shifts demonstration
  obtain ⟨q, hq, hend⟩ := hrepaired _ _ _ _ hrepair
  exact ⟨hrepair, q, hq, hend (-30) 0⟩

end Program

end AccumulatorMachine
