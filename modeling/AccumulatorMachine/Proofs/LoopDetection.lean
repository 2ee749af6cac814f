import AccumulatorMachine.Proofs.Run

/-!
# `AccumulatorMachine.Proofs.LoopDetection`: marks tell which programs go on forever

The machine with marks ends when it comes to an address a second time,
though the accumulator may differ on every lap. It is right to do so:
`execute_iff_plain` says that an execution always has an outcome, and
that the outcome is what the plain machine does from the same
configuration.

* It halts with `a` exactly if the plain machine comes to the address
  just past the program with `a`.
* It jumps out to `pc` exactly if the plain machine comes to `pc` and
  `pc` is further out.
* It reports a loop exactly if the plain machine is at an address of
  the program after any number of steps.

The first two hold because the plain machine stops outside of the
program, and the run with marks stops there too
(`StopsAt.eq_of_at?_eq_none`). For the third, a second visit keeps the
plain machine going forever (`Passed.exists_after`). That a machine
which goes on forever comes to an address twice needs no count of the
addresses: a run with marks always ends.
-/

set_option autoImplicit false

namespace AccumulatorMachine.Program

variable {p : Program} {d : Configuration}

/-! ### Outcomes by place -/

/-- To halt is to stop right behind the last instruction. -/
theorem outcomeAt_eq_halted_iff {a : Int} :
    p.outcomeAt d = .halted a ↔ d = ⟨p.size, a⟩ := by
  obtain ⟨pc, b⟩ := d
  unfold outcomeAt
  split
  · simp_all
  · split <;> simp_all

/-- To jump out is to stop before the first instruction or further behind
the last one. -/
theorem outcomeAt_eq_jumpOutOfBounds_iff {pc : Int} :
    p.outcomeAt d = .jumpOutOfBounds pc ↔ d.pc = pc ∧ (pc < 0 ∨ p.size < pc) := by
  unfold outcomeAt
  split
  · rename_i hend
    simp only [reduceCtorEq, false_iff]
    omega
  · split
    · rename_i hout
      simp only [Outcome.jumpOutOfBounds.injEq]
      omega
    · rename_i hin
      simp only [reduceCtorEq, false_iff]
      omega

/-- To loop is to stop at an instruction. -/
theorem exists_outcomeAt_eq_infiniteLoop_iff :
    (∃ a, p.outcomeAt d = .infiniteLoop a) ↔ ∃ i, p.at? d.pc = some i := by
  rw [exists_at?_iff]
  unfold outcomeAt
  split
  · rename_i hend
    simp only [reduceCtorEq, exists_const, false_iff]
    omega
  · split
    · rename_i hout
      simp only [reduceCtorEq, exists_const, false_iff]
      omega
    · rename_i hin
      simp only [Outcome.infiniteLoop.injEq, exists_eq', true_iff]
      omega

/-- The outcome of a machine that did not jump out tells the accumulator. -/
theorem accumulator_of_outcomeAt {a : Int}
    (h : p.outcomeAt d = .halted a ∨ p.outcomeAt d = .infiniteLoop a) : a = d.accumulator := by
  unfold outcomeAt at h
  split at h
  · simpa [eq_comm] using h
  · split at h
    · simp at h
    · simpa [eq_comm] using h

/-! ### Outcomes by what the plain machine does -/

/-- A run halts where the plain machine comes to the end. -/
theorem outcome_eq_halted_iff {a₀ a : Int} :
    p.outcome a₀ = .halted a ↔ ∃ n, p.after n ⟨0, a₀⟩ = some ⟨p.size, a⟩ := by
  obtain ⟨k, d, hstop, -⟩ := p.exists_stopsAt_quietTrace a₀
  rw [outcome_eq hstop, outcomeAt_eq_halted_iff]
  constructor
  · rintro rfl
    exact ⟨k, hstop.reached⟩
  · -- The end is outside of the program, so the run stops there too.
    rintro ⟨n, hn⟩
    exact (hstop.eq_of_at?_eq_none hn p.at?_size).2

/-- A run jumps out where the plain machine does. -/
theorem outcome_eq_jumpOutOfBounds_iff {a₀ pc : Int} :
    p.outcome a₀ = .jumpOutOfBounds pc
      ↔ (pc < 0 ∨ p.size < pc) ∧ ∃ n a, p.after n ⟨0, a₀⟩ = some ⟨pc, a⟩ := by
  obtain ⟨k, d, hstop, -⟩ := p.exists_stopsAt_quietTrace a₀
  rw [outcome_eq hstop, outcomeAt_eq_jumpOutOfBounds_iff]
  constructor
  · rintro ⟨rfl, hout⟩
    exact ⟨hout, k, d.accumulator, hstop.reached⟩
  · rintro ⟨hout, n, a, hn⟩
    have hnone : p.at? pc = none := at?_eq_none_iff.mpr (by omega)
    obtain ⟨-, rfl⟩ := hstop.eq_of_at?_eq_none hn hnone
    exact ⟨rfl, hout⟩

/-- A run reports a loop when the plain machine never stops. -/
theorem exists_outcome_eq_infiniteLoop_iff {a₀ : Int} :
    (∃ a, p.outcome a₀ = .infiniteLoop a)
      ↔ ∀ n, ∃ c, p.after n ⟨0, a₀⟩ = some c ∧ 0 ≤ c.pc ∧ c.pc < p.size := by
  obtain ⟨k, d, hstop, -⟩ := p.exists_stopsAt_quietTrace a₀
  rw [outcome_eq hstop, exists_outcomeAt_eq_infiniteLoop_iff]
  constructor
  · -- Stopped inside, the run was there before, and so the machine
    -- never stops.
    rintro ⟨i, hi⟩ n
    have hpass := hstop.ended.resolve_left fun hout => by cases hout.symm.trans hi
    obtain ⟨c, hc⟩ := hpass.exists_after hstop.reached n
    obtain ⟨c', hc'⟩ := hpass.exists_after hstop.reached (n + 1)
    exact ⟨c, hc, exists_at?_iff.mp (exists_at?_of_lt hc hc' (Nat.lt_succ_self n))⟩
  · -- The run stops after `k` steps, and the machine is inside then.
    intro hforever
    obtain ⟨c, hc, hin⟩ := hforever k
    obtain rfl : d = c := Option.some.inj (hstop.reached.symm.trans hc)
    exact exists_at?_iff.mpr hin

/-- A run succeeds exactly if the plain machine comes to the end. -/
theorem succeeded_outcome_iff {a₀ : Int} :
    (p.outcome a₀).succeeded = true ↔ p.Halts ⟨0, a₀⟩ := by
  constructor
  · intro h
    cases ho : p.outcome a₀ with
    | halted a =>
        obtain ⟨n, hn⟩ := outcome_eq_halted_iff.mp ho
        exact ⟨n, a, hn⟩
    | infiniteLoop a => simp [ho, Outcome.succeeded] at h
    | jumpOutOfBounds pc => simp [ho, Outcome.succeeded] at h
  · rintro ⟨n, a, hn⟩
    rw [outcome_eq_halted_iff.mpr ⟨n, hn⟩]
    rfl

/-! ### Soundness and completeness -/

/-- An execution always has an outcome, and the outcome tells what the
plain machine does: whether it comes to the end, to an address further
out, or never stops. -/
theorem execute_iff_plain (p : Program) (a₀ workers : Int) :
    (∃ o, (p.execute { initial := a₀, workers }).ending = .ok o)
    ∧ (∀ a, (p.execute { initial := a₀, workers }).ending = .ok (.halted a)
        ↔ ∃ n, p.after n ⟨0, a₀⟩ = some ⟨p.size, a⟩)
    ∧ (∀ pc, (p.execute { initial := a₀, workers }).ending = .ok (.jumpOutOfBounds pc)
        ↔ (pc < 0 ∨ p.size < pc) ∧ ∃ n a, p.after n ⟨0, a₀⟩ = some ⟨pc, a⟩)
    ∧ ((∃ a, (p.execute { initial := a₀, workers }).ending = .ok (.infiniteLoop a))
        ↔ ∀ n, ∃ c, p.after n ⟨0, a₀⟩ = some c ∧ 0 ≤ c.pc ∧ c.pc < p.size) := by
  simp only [execute_quiet, Except.ok.injEq]
  exact ⟨⟨_, rfl⟩, fun a => outcome_eq_halted_iff,
    fun pc => outcome_eq_jumpOutOfBounds_iff, exists_outcome_eq_infiniteLoop_iff⟩

end AccumulatorMachine.Program
