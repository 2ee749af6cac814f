import Mathlib.Order.Bounds.Defs
import AccumulatorMachine.Proofs.Run

/-!
# `AccumulatorMachine.Proofs.Trace`: a trace is the run of the plain machine

`p.Over c k` says that a run from `c` is over after `k` steps: the
plain machine is then outside of the program, or at an address where it
was before. A traced run stops at the least such `k`
(`StopsAt.isLeast`), and not one step later: the step that would carry
out an instruction for the second time is not recorded, and the
accumulator of a loop is the one before it.

`trace_eq_plain_run` gives every field of every step in terms of the
plain machine, and the outcome in terms of the configuration where it
stops.
-/

set_option autoImplicit false

namespace AccumulatorMachine.Program

variable {p : Program} {c d : Configuration} {k n : Nat}

/-- Whether a run is over after `k` steps: the plain machine is outside
of the program, or at an address where it was before. -/
def Over (p : Program) (c : Configuration) (k : Nat) : Prop :=
  ∃ d, p.after k c = some d ∧ ((d.pc < 0 ∨ p.size ≤ d.pc) ∨ p.Passed c k d.pc)

/-- The machine stops as soon as the run is over. -/
theorem StopsAt.isLeast (h : p.StopsAt c n d) : IsLeast {k | p.Over c k} n := by
  constructor
  · exact ⟨d, h.reached, h.ended.imp_left at?_eq_none_iff.mp⟩
  · intro k hk
    obtain ⟨e, he, hover⟩ := hk
    refine Nat.le_of_not_lt fun hkn => ?_
    rcases hover with hout | hpass
    · -- Outside of the program there is no step, but the machine goes on
      -- to `d`.
      obtain ⟨i, hi⟩ := exists_at?_of_lt he h.reached hkn
      have hnone : p.at? e.pc = none := at?_eq_none_iff.mpr hout
      cases hnone.symm.trans hi
    · exact h.fresh k hkn e he hpass

/-- The step with number `k` leads from the configuration after `k`
steps to the next one. -/
theorem exists_getElem?_steps (h : p.after n c = some d) (hk : k < n) :
    ∃ e e' i, p.after k c = some e ∧ p.after (k + 1) c = some e' ∧ p.at? e.pc = some i
      ∧ (p.steps n 0 c)[k]?
        = some { index := k, pc := e.pc, instruction := i, before := e.accumulator,
                 after := e'.accumulator, next := e'.pc } := by
  obtain ⟨e, he, -⟩ := exists_after_of_le h (Nat.le_of_lt hk)
  obtain ⟨i, hi⟩ := exists_at?_of_lt he h hk
  refine ⟨e, e.advance i, i, he, after_succ_of_eq_some he hi, hi, ?_⟩
  rw [getElem?_steps he hi hk 0, Nat.zero_add]
  rfl

/-- A quiet traced run takes as many steps as there are until the run is
over for the first time, and tells so in the log. Each step holds the
states of the plain machine before and after it, and the outcome is
told by the address where the plain machine is at the end. The recording
of the run holds its steps and their number, the length of the program,
and the accumulator at the start. An execution has the same outcome. -/
theorem trace_eq_plain_run (p : Program) (a₀ workers : Int) :
    ∃ K d t, IsLeast {k | p.Over ⟨0, a₀⟩ k} K ∧ p.after K ⟨0, a₀⟩ = some d
      ∧ p.trace { initial := a₀, workers }
        = ⟨[.logged (.executed K t.outcome.record)], .ok t⟩
      ∧ t.steps.length = K
      ∧ (∀ k < K, ∃ c c' i, p.after k ⟨0, a₀⟩ = some c ∧ p.after (k + 1) ⟨0, a₀⟩ = some c'
          ∧ p.at? c.pc = some i
          ∧ t.steps[k]?
            = some { index := k, pc := c.pc, instruction := i, before := c.accumulator,
                     after := c'.accumulator, next := c'.pc })
      ∧ t.outcome = (if d.pc = p.size then .halted d.accumulator
          else if d.pc < 0 ∨ p.size < d.pc then .jumpOutOfBounds d.pc
          else .infiniteLoop d.accumulator)
      ∧ p.executeTraced { initial := a₀, workers }
        = ⟨[.logged (.executed K t.outcome.record)],
            .ok { trace := t, statistics := { steps := K, programLength := p.size },
                  initial := a₀ }⟩
      ∧ (p.execute { initial := a₀, workers }).ending = .ok t.outcome := by
  obtain ⟨K, d, hstop, htrace⟩ := p.exists_stopsAt_trace a₀ workers
  have hexecute : (p.execute { initial := a₀, workers }).ending = .ok (p.outcomeAt d) := by
    rw [execute_quiet, outcome_eq hstop]
  have hlength : (p.steps K 0 ⟨0, a₀⟩).length = K := length_steps hstop.reached 0
  -- The recording is made of the trace: nothing is counted that is not in it.
  have hrecorded : p.executeTraced { initial := a₀, workers }
      = ⟨[.logged (.executed K (p.outcomeAt d).record)],
          .ok { trace := ⟨p.steps K 0 ⟨0, a₀⟩, p.outcomeAt d⟩,
                statistics := { steps := K, programLength := p.size }, initial := a₀ }⟩ := by
    rw [executeTraced_eq, htrace, Transcript.ext_iff]
    simp [Trace.recorded, hlength, Except.map]
  exact ⟨K, d, ⟨p.steps K 0 ⟨0, a₀⟩, p.outcomeAt d⟩, hstop.isLeast, hstop.reached, htrace,
    hlength, fun k hk => exists_getElem?_steps hstop.reached hk, rfl, hrecorded, hexecute⟩

end AccumulatorMachine.Program
