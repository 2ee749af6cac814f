import AccumulatorMachine.Proofs.Lines
import AccumulatorMachine.Proofs.Search

/-!
# `AccumulatorMachine.Proofs.Printing`: verbose runs, surveys and searches

A verbose run prints its steps while it goes, a verbose survey its
attempts at the end, and a verbose search each attempt when it is made.
What they print is about the values that they have without printing. So
each of them has the value of the quiet one if all integers that it
shows can be written, and otherwise fails for the first that is too long:

* `yields_trace`: a run shows its steps, its outcome and their number;
* `yields_survey`: a survey shows all attempts;
* `yields_repair`: a search shows the attempts that it makes, which are
  those up to the first success or, with workers, all of them
  (`Program.made`).

The value of a quiet search is `Program.quietRepair`.
-/

set_option autoImplicit false

namespace AccumulatorMachine

open Transcript (Yields)

/-- The attempts up to the first success, and all of them if there is
none. -/
def untilSuccess : List Attempt → List Attempt
  | [] => []
  | x :: rest =>
    match x.success? with
    | some _ => [x]
    | none => x :: untilSuccess rest

/-- Without attempts there are none to go through. -/
@[simp]
theorem untilSuccess_nil : untilSuccess [] = [] := rfl

/-- A success is the last of the attempts. -/
theorem untilSuccess_of_eq_some {x : Attempt} {found : Int × Int} (h : x.success? = some found)
    (rest : List Attempt) : untilSuccess (x :: rest) = [x] := by
  simp [untilSuccess, h]

/-- After a failure the attempts go on. -/
theorem untilSuccess_of_eq_none {x : Attempt} (h : x.success? = none) (rest : List Attempt) :
    untilSuccess (x :: rest) = x :: untilSuccess rest := by
  simp [untilSuccess, h]

/-- An attempt is shown on a line of its own. -/
theorem yields_printIndented (x : Attempt) : x.printIndented.Yields x.shown () :=
  Transcript.yields_printIndented (Shows.text_attempt x)

namespace Program

variable {p : Program} {s t : State} {i : Instruction}

/-! ### Runs -/

/-- A verbose run is the quiet one with its steps printed. -/
theorem runFrom_verbose_eq {n : Nat} {trace : Trace}
    (h : (p.runFrom false n s).ending = .ok trace) :
    p.runFrom true n s
      = (forM trace.steps fun step => Transcript.printIndented step.text) >>= fun _ =>
          pure trace := by
  -- Every move uses up an unmarked address.
  induction hu : s.unmarked using Nat.strongRecOn generalizing n s trace with
  | ind u ih =>
      cases hturn : s.turn p with
      | error e =>
          rw [runFrom_of_error hturn] at h
          cases h
      | ok turn =>
          cases turn with
          | ended o =>
              rw [runFrom_of_ended hturn] at h ⊢
              cases h
              rfl
          | moved i t =>
              have hlt : t.unmarked < u := hu ▸ State.unmarked_lt_of_turn hturn
              rw [runFrom_quiet_of_moved hturn, Transcript.ending_map] at h
              cases hrest : (p.runFrom false (n + 1) t).ending with
              | error e =>
                  rw [hrest] at h
                  cases h
              | ok rest =>
                  rw [hrest] at h
                  cases h
                  rw [runFrom_verbose_of_moved hturn, ih _ hlt hrest rfl]
                  simp only [Trace.prepend, List.singleton_append, List.forM_cons, bind_assoc,
                    map_bind, map_pure]

/-- So it shows the integers of its steps. -/
theorem yields_runFrom_verbose {n : Nat} {trace : Trace}
    (h : (p.runFrom false n s).ending = .ok trace) :
    (p.runFrom true n s).Yields (trace.steps.flatMap Step.shown) trace := by
  rw [runFrom_verbose_eq h]
  exact (Yields.forM (fun step => Transcript.yields_printIndented (Shows.text_step step))
    trace.steps).bind_pure fun _ => trace

/-- The quiet run from the first instruction writes nothing. -/
theorem runFrom_initial (p : Program) (a : Int) :
    p.runFrom false 0 (State.initial p.size a) = pure (p.quietTrace a) := by
  obtain ⟨k, d, hstop, hrun⟩ := runFrom_eq (State.Follows.initial p a)
  obtain ⟨k', d', hstop', htrace⟩ := p.exists_stopsAt_quietTrace a
  rw [Nat.zero_add] at hstop
  obtain ⟨rfl, rfl⟩ := hstop.unique hstop'
  rw [hrun, htrace]
  rfl

/-- So it ends with its trace. -/
theorem ending_runFrom_initial (p : Program) (a : Int) :
    (p.runFrom false 0 (State.initial p.size a)).ending = .ok (p.quietTrace a) := by
  rw [runFrom_initial]
  rfl

/-- A run shows its steps, its outcome and their number if it is
verbose, and nothing otherwise. -/
theorem yields_trace (p : Program) (settings : Settings) :
    (p.trace settings).Yields
      (if settings.verbose then (p.quietTrace settings.initial).shown else [])
      (p.quietTrace settings.initial) := by
  obtain ⟨initial, verbose, workers⟩ := settings
  cases verbose with
  | false => exact .of_ending (by rw [trace_quiet])
  | true =>
      have hclosing : (Transcript.text (p.quietTrace initial).closing >>= fun line =>
            Transcript.printLine line >>= fun _ =>
              Transcript.log (.executed (p.quietTrace initial).steps.length
                (p.quietTrace initial).outcome.record) >>= fun _ =>
                  pure (p.quietTrace initial)).Yields
          [(p.quietTrace initial).outcome.number, ((p.quietTrace initial).steps.length : Int)]
          (p.quietTrace initial) :=
        .text_bind_of_ending (Shows.closing _) fun _ => rfl
      rw [trace_eq]
      simp only [if_true]
      exact (yields_runFrom_verbose (p.ending_runFrom_initial initial)).bind hclosing

/-- A run that has a value has the one of the quiet run. -/
theorem eq_quietTrace_of_ending_trace {settings : Settings} {t : Trace}
    (h : (p.trace settings).ending = .ok t) : t = p.quietTrace settings.initial :=
  (p.yields_trace settings).eq_of_ending h

/-! ### Surveys and searches -/

/-- A survey shows its attempts if it is verbose. -/
theorem yields_survey (p : Program) (settings : Settings) :
    (p.survey settings).Yields
      (if settings.verbose then p.attempts.flatMap Attempt.shown else []) p.attempts := by
  have hprint : (p.attempts.forM Attempt.printIndented).Yields
      (p.attempts.flatMap Attempt.shown) () := .forM yields_printIndented _
  rw [survey, ← List.append_nil (if settings.verbose then _ else _), ← List.nil_append (_ ++ _)]
  exact .bind (.of_ending (p.ending_mapM_attempt settings)) (hprint.ite_bind (.of_ending rfl))

/-- A search through addresses shows the attempts up to the first
success if it is verbose. -/
theorem yields_searchFrom {l : List (Instruction × Nat)} (hl : ∀ entry ∈ l, entry ∈ p.swappable)
    (settings : Settings) (made : Nat) :
    (p.searchFrom settings made (l.map (·.2))).Yields
      (if settings.verbose then (untilSuccess (l.map p.attemptAt)).flatMap Attempt.shown else [])
      (firstSuccess made (l.map p.attemptAt)) := by
  induction l generalizing made with
  | nil =>
      rw [List.map_nil, List.map_nil, untilSuccess_nil, List.flatMap_nil, ite_self]
      exact .of_ending rfl
  | cons entry l ih =>
      have hentry := (mem_swappable_iff.mp (hl entry List.mem_cons_self)).1
      have hrest := ih (fun e he => hl e (List.mem_cons_of_mem entry he)) (made + 1)
      have hattempt : (p.attempt entry.2 settings).Yields [] (p.attemptAt entry) :=
        .of_ending (by rw [attempt_eq hentry])
      have hprint := yields_printIndented (p.attemptAt entry)
      rw [List.map_cons, List.map_cons, searchFrom]
      cases hsuccess : (p.attemptAt entry).success? with
      | some found =>
          -- Nothing comes after the success.
          have hgo : (pure (Repair.repaired found.1 found.2 (made + 1)) : Transcript Repair).Yields
              (if settings.verbose then [] else []) (.repaired found.1 found.2 (made + 1)) := by
            rw [ite_self]
            exact .of_ending rfl
          rw [untilSuccess_of_eq_some hsuccess, List.flatMap_cons, List.flatMap_nil,
            ← Yields.ite_nil_append_ite_nil, ← List.nil_append (_ ++ _)]
          simp only [firstSuccess, hsuccess]
          refine hattempt.bind (hprint.ite_bind ?_)
          simp only [hsuccess]
          exact hgo
      | none =>
          rw [untilSuccess_of_eq_none hsuccess, List.flatMap_cons,
            ← Yields.ite_nil_append_ite_nil, ← List.nil_append (_ ++ _)]
          simp only [firstSuccess, hsuccess]
          refine hattempt.bind (hprint.ite_bind ?_)
          simp only [hsuccess]
          exact hrest

/-- The attempts that a search makes: all of them with workers, and
otherwise those up to the first success. -/
def made (p : Program) (workers : Int) : List Attempt :=
  if 0 < workers then p.attempts else untilSuccess p.attempts

/-- What a quiet search comes to. -/
def quietRepair (p : Program) (workers : Int) : Repair :=
  if 0 < workers then lowestSuccess p.attempts else firstSuccess 0 p.attempts

/-- A quiet search finds the lowest repair, or tells that there is
none. -/
theorem quietRepair_cases (p : Program) (workers : Int) :
    (∃ (i : Nat) (a : Int), p.quietRepair workers
        = .repaired i a (if 0 < workers then p.toList.countP Instruction.isToggleable
            else (p.toList.take (i + 1)).countP Instruction.isToggleable)
      ∧ p.LowestRepair i a)
    ∨ (p.quietRepair workers = .notFound (p.toList.countP Instruction.isToggleable)
      ∧ ∀ i a, ¬p.RepairedBy i a) := by
  have hrepair : (p.repair { workers }).ending = .ok (p.quietRepair workers) :=
    p.ending_repair 0 workers
  have hcases := p.repair_cases 0 workers
  simpa only [hrepair, Except.ok.injEq] using hcases

/-- A search shows the attempts that it makes if it is verbose. -/
theorem yields_repair (p : Program) (settings : Settings) :
    (p.repair settings).Yields
      (if settings.verbose then (p.made settings.workers).flatMap Attempt.shown else [])
      (p.quietRepair settings.workers) := by
  have hsearch : (if 0 < settings.workers then lowestSuccess <$> p.survey settings
        else p.searchFrom settings 0 p.candidates).Yields
      (if settings.verbose then (p.made settings.workers).flatMap Attempt.shown else [])
      (p.quietRepair settings.workers) := by
    unfold made quietRepair
    split
    · exact (p.yields_survey settings).map lowestSuccess
    · exact yields_searchFrom (fun _ he => he) settings 0
  -- Both ways of searching end by telling the log, which shows nothing.
  have hrepair : p.repair settings
      = (if 0 < settings.workers then lowestSuccess <$> p.survey settings
          else p.searchFrom settings 0 p.candidates) >>= fun result =>
            Transcript.log result.entry >>= fun _ => pure result := by
    unfold repair
    split
    · rfl
    · rfl
  rw [hrepair, ← List.append_nil (if settings.verbose then _ else _)]
  exact hsearch.bind (.of_ending rfl)

end Program

end AccumulatorMachine
