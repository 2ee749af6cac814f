import AccumulatorMachine.Proofs.Search

/-!
# `AccumulatorMachine.Proofs.Verbose`: printing changes no value

A verbose survey prints its attempts at the end, and a verbose search
prints each attempt when it is made. A number can be too long to print,
and then there is no value. Otherwise the value is the one without
printing (`eq_attempts_of_ending_survey`, `ending_repair_quiet`), so
what is known of quiet searches is known of all:
`lowestRepair_of_ending_repair` says it of a repair that was found.

The accumulator in the settings is not used at all: attempts start from
`0`. With another one there a search is the same, also in what it
prints (`repair_initial`).
-/

set_option autoImplicit false

namespace AccumulatorMachine.Program

variable {p : Program} {settings : Settings}

/-! ### Printing -/

/-- A survey that has a value has the attempts in ascending order. -/
theorem eq_attempts_of_ending_survey {ys : List Attempt}
    (h : (p.survey settings).ending = .ok ys) : ys = p.attempts := by
  unfold survey at h
  rw [Transcript.ending_bind_of_ok (p.ending_mapM_attempt settings)] at h
  -- The attempts are handed on after they were printed.
  have hreturn := Transcript.ending_of_ending_ite h
  exact (Except.ok.inj hreturn).symm

/-- A search through addresses that has a value has the first
success. -/
theorem eq_firstSuccess_of_ending_searchFrom {l : List (Instruction × Nat)}
    (hl : ∀ entry ∈ l, entry ∈ p.swappable) {made : Nat} {r : Repair}
    (h : (p.searchFrom settings made (l.map (·.2))).ending = .ok r) :
    r = firstSuccess made (l.map p.attemptAt) := by
  induction l generalizing made with
  | nil => exact (Except.ok.inj h).symm
  | cons entry l ih =>
      have hentry := (mem_swappable_iff.mp (hl entry List.mem_cons_self)).1
      have hrest : ∀ e ∈ l, e ∈ p.swappable := fun e he => hl e (List.mem_cons_of_mem entry he)
      rw [List.map_cons, searchFrom, attempt_eq hentry, Transcript.ending_bind_of_ok rfl] at h
      -- Whether the attempt is printed or not, its success decides.
      have hgo := Transcript.ending_of_ending_ite h
      rw [List.map_cons, firstSuccess]
      cases hsuccess : (p.attemptAt (entry.1, entry.2)).success? with
      | some found =>
          rw [hsuccess] at hgo
          exact (Except.ok.inj hgo).symm
      | none =>
          rw [hsuccess] at hgo
          exact ih hrest hgo

/-- A search that has a value has the one of a quiet search. -/
theorem ending_repair_quiet {r : Repair} (h : (p.repair settings).ending = .ok r)
    (initial : Int) : (p.repair { initial, workers := settings.workers }).ending = .ok r := by
  rw [ending_repair]
  unfold repair at h
  split at h
  · -- With workers there is a survey, and its attempts do not depend on the settings.
    rename_i hw
    obtain ⟨r', hr', hreturn⟩ := Transcript.ending_bind_eq_ok_iff.mp h
    cases hsurvey : (p.survey settings).ending with
    | error e =>
        rw [Transcript.ending_map, hsurvey] at hr'
        cases hr'
    | ok ys =>
        rw [Transcript.ending_map, hsurvey, eq_attempts_of_ending_survey hsurvey] at hr'
        have hr : lowestSuccess p.attempts = r' := Except.ok.inj hr'
        rw [if_pos hw, hr]
        exact hreturn
  · rename_i hw
    obtain ⟨r', hr', hreturn⟩ := Transcript.ending_bind_eq_ok_iff.mp h
    rw [candidates_eq] at hr'
    rw [if_neg hw, attempts, ← eq_firstSuccess_of_ending_searchFrom (fun _ he => he) hr']
    exact hreturn

/-- A repair that was found is the lowest one. -/
theorem lowestRepair_of_ending_repair {index a : Int} {made : Nat}
    (h : (p.repair settings).ending = .ok (.repaired index a made)) :
    ∃ i : Nat, index = i ∧ p.LowestRepair i a := by
  have hquiet := ending_repair_quiet h 0
  rcases p.repair_cases 0 settings.workers with ⟨i, b, hres, hlow⟩ | ⟨hres, -⟩
  · cases hquiet.symm.trans hres
    exact ⟨i, rfl, hlow⟩
  · cases hquiet.symm.trans hres

/-! ### The accumulator of the settings -/

/-- Attempts run from `0` whatever the settings say, so the accumulator of
the settings is never looked at. -/
theorem searchFrom_initial (p : Program) (settings : Settings) (a : Int) (made : Nat)
    (l : List Nat) :
    p.searchFrom { settings with initial := a } made l = p.searchFrom settings made l := by
  induction l generalizing made with
  | nil => rfl
  | cons i l ih =>
      simp only [searchFrom, ih]
      rfl

/-- The accumulator of the settings makes no difference to a search. -/
theorem repair_initial (p : Program) (settings : Settings) (a : Int) :
    p.repair { settings with initial := a } = p.repair settings := by
  simp only [repair, searchFrom_initial]
  rfl

end AccumulatorMachine.Program
