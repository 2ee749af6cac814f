import AccumulatorMachine.Proofs.Budget
import AccumulatorMachine.Proofs.FailingJump
import AccumulatorMachine.Proofs.Readings

/-!
# `AccumulatorMachine.Proofs.Stages`: a run of the pipeline and its stages

`Pipeline.run` takes a listing through all stages in one go, prints what
happens if it is verbose, and hands one set of settings to every stage.
`Program.load`, `Program.executeListing` and `Program.repairListing` do a
stage at a time, quietly and with settings of their own. Both come to
the same (`run_agrees_with_stages`).

Each stage yields the value of the quiet one and shows integers if it is
verbose, so that the whole run does (`yields_run`). What it comes to is
`Pipeline.reportOf`.

A search makes an attempt at least, because a run that fails comes to a
`jmp` (`exists_isToggleable_of_not_succeeded`).
-/

set_option autoImplicit false

namespace AccumulatorMachine

open Numeral (AllShort)
open Transcript (Yields)

namespace Program

variable {p : Program}

/-! ### The number of attempts -/

/-- A program that does not halt has an instruction to swap. -/
theorem exists_isToggleable_of_not_succeeded {a : Int} (h : (p.outcome a).succeeded = false) :
    0 < p.toList.countP Instruction.isToggleable := by
  obtain ⟨i, hi, -⟩ := exists_visited_candidate h
  rw [candidates_eq] at hi
  obtain ⟨⟨x, j⟩, hentry, -⟩ := List.mem_map.mp hi
  obtain ⟨hx, hswap⟩ := mem_swappable_iff.mp hentry
  exact List.countP_pos_iff.mpr ⟨x, List.mem_of_getElem? hx, hswap⟩

/-- A search makes no more attempts than there are instructions to swap,
and at least one if there are any. -/
theorem attempts_quietRepair (p : Program) (workers : Int) :
    (p.quietRepair workers).attempts ≤ p.toList.countP Instruction.isToggleable
      ∧ (0 < p.toList.countP Instruction.isToggleable → 0 < (p.quietRepair workers).attempts) := by
  rcases p.quietRepair_cases workers with ⟨i, a, hres, hlow⟩ | ⟨hres, -⟩
  · rw [hres, Repair.attempts]
    split
    · exact ⟨Nat.le_refl _, id⟩
    · -- The attempt at the repair is one of those up to there.
      obtain ⟨x, hx, hswap⟩ := hlow.1.1
      refine ⟨(List.take_sublist _ _).countP_le, fun _ => ?_⟩
      refine List.countP_pos_iff.mpr ⟨x, ?_, hswap⟩
      refine List.mem_of_getElem? (i := i) ?_
      rw [List.getElem?_take_of_lt (Nat.lt_succ_self i), hx]
  · rw [hres, Repair.attempts]
    exact ⟨Nat.le_refl _, id⟩

end Program

namespace Pipeline

variable {source : String} {settings : Settings} {wanted : Bool} {clock : Clock} {p : Program}

/-! ### What a run comes to -/

/-- Whether a run searches for a repair. -/
def searches (settings : Settings) (wanted : Bool) (p : Program) : Bool :=
  wanted && !(p.outcome settings.initial).succeeded

/-- What the search of a run comes to, if there is one. -/
def repairOf (settings : Settings) (wanted : Bool) (p : Program) : Option Repair :=
  if searches settings wanted p then some (p.quietRepair settings.workers) else none

/-- The sizes of a run whose search, if any, came to a result. -/
def sizes (source : String) (settings : Settings) (p : Program) (repair : Option Repair) :
    Statistics where
  sourceBytes := source.utf8ByteSize
  sourceLines := countLines source
  instructionCount := p.size
  executionSteps := (p.quietTrace settings.initial).steps.length
  repairAttempts := (repair.map Repair.attempts).getD 0

/-- The sizes and times of such a run. -/
def statisticsOf (source : String) (settings : Settings) (clock : Clock) (p : Program)
    (repair : Option Repair) : Statistics :=
  timed clock repair.isSome (sizes source settings p repair)

/-- The report of a run. -/
def reportOf (source : String) (settings : Settings) (wanted : Bool) (clock : Clock)
    (p : Program) : Report where
  program := p
  outcome := p.outcome settings.initial
  repair := repairOf settings wanted p
  statistics := statisticsOf source settings clock p (repairOf settings wanted p)

/-- The integers that a verbose search prints, if there is one. -/
def shownInSearch (settings : Settings) (wanted : Bool) (p : Program) : List Int :=
  if searches settings wanted p then (p.made settings.workers).flatMap Attempt.shown else []

/-- The integers that a verbose run prints when the program has ended. -/
def shownAfterTrace (source : String) (settings : Settings) (wanted : Bool) (p : Program) :
    List Int :=
  shownInSearch settings wanted p
    ++ (sizes source settings p (repairOf settings wanted p)).shown

/-- The integers that a verbose run prints: those of the program, of its
run, of the search and of the statistics. -/
def shown (source : String) (settings : Settings) (wanted : Bool) (p : Program) : List Int :=
  p.shown ++ ((p.quietTrace settings.initial).shown
    ++ shownAfterTrace source settings wanted p)

/-! ### The stages -/

/-- The program is printed with its addresses, behind a heading. -/
theorem yields_announce (p : Program) : (announce p).Yields p.shown () :=
  .printLine_bind _ (.text_bind_of_ending (Shows.numbered p) fun _ => rfl)

/-- The statistics are printed at the end, behind a heading. -/
theorem yields_conclude (s : Statistics) : (conclude s).Yields s.shown () :=
  .printLine_bind _ (.text_bind_of_ending (Shows.report s) fun _ => rfl)

/-- The heading of a search shows nothing. -/
theorem yields_search (p : Program) (settings : Settings) :
    (search p settings).Yields
      (if settings.verbose then (p.made settings.workers).flatMap Attempt.shown else [])
      (p.quietRepair settings.workers) := by
  have hheading : (emptyLine >>= fun _ => heading "Repair").Yields [] () := .of_ending rfl
  have h := hheading.ite_bind (q := settings.verbose = true) (f := fun _ => p.repair settings)
    (p.yields_repair settings)
  rw [ite_self, List.nil_append] at h
  exact h

/-- A search that is left out shows nothing. -/
theorem yields_search_if (settings : Settings) (wanted : Bool) (p : Program) :
    (if searches settings wanted p then some <$> search p settings
      else pure none : Transcript (Option Repair)).Yields
    (if settings.verbose then shownInSearch settings wanted p else [])
    (repairOf settings wanted p) := by
  unfold shownInSearch repairOf
  split
  · exact (yields_search p settings).map some
  · rw [ite_self]
    exact .of_ending rfl

/-- What comes after a search, or in place of it. -/
def closeWith (source : String) (settings : Settings) (clock : Clock) (p : Program)
    (repair : Option Repair) : Transcript (Option Repair × Statistics) := do
  if settings.verbose then
    conclude (statisticsOf source settings clock p repair)
  return (repair, statisticsOf source settings clock p repair)

/-- The integers at the end are those of the statistics, and the times are
not among them. -/
theorem yields_closeWith (source : String) (settings : Settings) (clock : Clock) (p : Program)
    (repair : Option Repair) :
    (closeWith source settings clock p repair).Yields
      (if settings.verbose then (sizes source settings p repair).shown else [])
      (repair, statisticsOf source settings clock p repair) := by
  rw [closeWith, ← List.append_nil (if settings.verbose then _ else _)]
  exact (yields_conclude _).ite_bind (.of_ending rfl)

/-- What comes after the run of the program, whatever the record of its
outcome tells besides success. -/
theorem yields_finish (source : String) (settings : Settings) (wanted : Bool) (clock : Clock)
    (p : Program) {outcome : OutcomeRecord}
    (h : outcome.succeeded = (p.outcome settings.initial).succeeded) :
    (finish source settings wanted clock p (p.quietTrace settings.initial).steps.length
        outcome).Yields
      (if settings.verbose then shownAfterTrace source settings wanted p else [])
      (repairOf settings wanted p,
        statisticsOf source settings clock p (repairOf settings wanted p)) := by
  have hfinish : finish source settings wanted clock p
        (p.quietTrace settings.initial).steps.length outcome
      = Transcript.log (.finished (p.quietTrace settings.initial).steps.length outcome)
          >>= fun _ =>
            (if searches settings wanted p then some <$> search p settings else pure none)
              >>= closeWith source settings clock p := by
    unfold finish searches
    rw [h]
    cases wanted && !(p.outcome settings.initial).succeeded with
    | true => rfl
    | false => rfl
  rw [hfinish, shownAfterTrace, ← Yields.ite_nil_append_ite_nil]
  refine Yields.log_bind _ ?_
  exact (yields_search_if settings wanted p).bind (yields_closeWith source settings clock p _)

/-- What comes after the program is printed. -/
def runProgram (source : String) (settings : Settings) (wanted : Bool) (clock : Clock)
    (p : Program) : Transcript Report := do
  let t ← p.trace settings
  let (repair, statistics) ← finish source settings wanted clock p t.steps.length t.outcome.record
  return { program := p, outcome := t.outcome, repair, statistics }

/-- A run that is read goes through its own steps and then through what
comes after them. -/
theorem yields_runProgram (source : String) (settings : Settings) (wanted : Bool) (clock : Clock)
    (p : Program) :
    (runProgram source settings wanted clock p).Yields
      (if settings.verbose then
        (p.quietTrace settings.initial).shown ++ shownAfterTrace source settings wanted p else [])
      (reportOf source settings wanted clock p) := by
  rw [runProgram, ← Yields.ite_nil_append_ite_nil]
  exact (p.yields_trace settings).bind
    ((yields_finish source settings wanted clock p (Outcome.succeeded_record _)).bind_pure _)

/-- A run shows the integers of its stages if it is verbose, and comes to
the report of the quiet ones. -/
theorem yields_run (h : (Program.load source).ending = .ok p) (settings : Settings)
    (wanted : Bool) (clock : Clock) :
    (run source settings wanted clock).Yields
      (if settings.verbose then shown source settings wanted p else [])
      (reportOf source settings wanted clock p) := by
  have hrun : run source settings wanted clock = Program.load source >>= fun p =>
      if settings.verbose then
        announce p >>= fun _ => runProgram source settings wanted clock p
      else runProgram source settings wanted clock p := run_eq source settings wanted clock
  rw [hrun, shown, ← Yields.ite_nil_append_ite_nil, ← List.nil_append (_ ++ _)]
  exact .bind (.of_ending h)
    ((yields_announce p).ite_bind (yields_runProgram source settings wanted clock p))

/-! ### The stages by themselves -/

/-- A listing that cannot be read leaves nothing behind. -/
theorem load_eq_fail {e : Failure} (h : (Program.load source).ending = .error e) :
    Program.load source = Transcript.fail e := by
  unfold Program.load at h ⊢
  cases hread : Program.read source with
  | ok p =>
      rw [hread] at h
      cases h
  | error e' =>
      rw [hread] at h
      cases h
      rfl

/-- A listing that is read is loaded as its program. -/
theorem ending_load (h : Program.read source = .ok p) : (Program.load source).ending = .ok p := by
  rw [Program.load_of_read h]

/-- The call that only runs a listing comes to the outcome of the quiet run.
-/
theorem ending_executeListing (h : (Program.load source).ending = .ok p) (initial : Int) :
    (Program.executeListing source initial).ending = .ok (p.outcome initial) := by
  rw [Program.executeListing, Transcript.ending_bind_of_ok h, Program.execute_quiet]

/-- The call that only repairs one comes to the result of the quiet search.
-/
theorem ending_repairListing (h : (Program.load source).ending = .ok p) (workers : Int) :
    (Program.repairListing source workers).ending = .ok (p.quietRepair workers) := by
  rw [Program.repairListing, Transcript.ending_bind_of_ok h, Transcript.ending_bind_of_ok rfl,
    Program.ending_repair]
  rfl

/-- There is no search if none is wanted or the program halts. -/
theorem repairOf_eq_none_iff :
    repairOf settings wanted p = none
      ↔ wanted = false ∨ (p.outcome settings.initial).succeeded = true := by
  unfold repairOf searches
  cases wanted <;> cases (p.outcome settings.initial).succeeded <;> simp

/-- The result of a search is the one of the quiet search, which makes an
attempt at least. -/
theorem of_repairOf_eq_some {r : Repair} (h : repairOf settings wanted p = some r) :
    r = p.quietRepair settings.workers ∧ 0 < r.attempts := by
  unfold repairOf at h
  split at h
  · rename_i hsearch
    cases h
    rw [searches, Bool.and_eq_true, Bool.not_eq_true'] at hsearch
    exact ⟨rfl, (p.attempts_quietRepair settings.workers).2
      (Program.exists_isToggleable_of_not_succeeded hsearch.2)⟩
  · cases h

/-- There are no more attempts than instructions that can be swapped, and
none without a search. -/
theorem attempts_repairOf_le (settings : Settings) (wanted : Bool) (p : Program) :
    ((repairOf settings wanted p).map Repair.attempts).getD 0
      ≤ p.toList.countP Instruction.isToggleable := by
  cases h : repairOf settings wanted p with
  | none => exact Nat.zero_le _
  | some r =>
      obtain ⟨rfl, -⟩ := of_repairOf_eq_some h
      exact (p.attempts_quietRepair settings.workers).1

/-- A run fails as the reading of its listing does, and then prints
nothing. If the listing is read, and the run is not verbose or all
integers that it prints can be written, then the run comes to a report.
The report tells the program, the outcome of the quiet run, and the
result of the quiet search unless none is wanted or the program halts.
Its statistics tell the number of instructions, the number of steps,
which is not higher, and the number of attempts, which is not higher than
the number of instructions to swap and at least `1` after a search. A
verbose run with an integer that is too long fails for its digits. -/
theorem run_agrees_with_stages (source : String) (settings : Settings) (wanted : Bool)
    (clock : Clock) :
    (∀ e, (Program.load source).ending = .error e →
      run source settings wanted clock = Transcript.fail e)
    ∧ ∀ p, (Program.load source).ending = .ok p →
      ((settings.verbose = false ∨ AllShort (shown source settings wanted p)) →
        ∃ report t, (run source settings wanted clock).ending = .ok report
          ∧ report.program = p
          ∧ (Program.executeListing source settings.initial).ending = .ok report.outcome
          ∧ (report.repair = none ↔ wanted = false ∨ report.outcome.succeeded = true)
          ∧ (∀ r, report.repair = some r →
              (Program.repairListing source settings.workers).ending = .ok r)
          ∧ (p.trace settings).ending = .ok t
          ∧ (p.trace { initial := settings.initial }).ending = .ok t
          ∧ report.statistics.instructionCount = p.size
          ∧ report.statistics.executionSteps = t.steps.length ∧ t.steps.length ≤ p.size
          ∧ report.statistics.repairAttempts = ((report.repair.map Repair.attempts).getD 0 : Nat)
          ∧ report.statistics.repairAttempts ≤ (p.toList.countP Instruction.isToggleable : Nat)
          ∧ (report.repair ≠ none → 1 ≤ report.statistics.repairAttempts))
      ∧ (settings.verbose = true → ¬AllShort (shown source settings wanted p) →
        (run source settings wanted clock).ending = .error (.numeral .tooLarge)) := by
  refine ⟨fun e he => ?_, fun p hp => ⟨fun hshort => ?_, fun hverbose hlong => ?_⟩⟩
  · rw [run_eq, load_eq_fail he]
    rfl
  · have hprinted : settings.verbose = true → AllShort (shown source settings wanted p) :=
      fun hverbose => hshort.resolve_left (by simp [hverbose])
    -- The integers of the run are some of those that are printed.
    have htrace : (p.trace settings).ending = .ok (p.quietTrace settings.initial) := by
      refine (p.yields_trace settings).ok (Numeral.allShort_ite_nil.mpr fun hverbose => ?_)
      have hall := hprinted hverbose
      rw [shown, Numeral.allShort_append, Numeral.allShort_append] at hall
      exact hall.2.1
    refine ⟨reportOf source settings wanted clock p, p.quietTrace settings.initial,
      (yields_run hp settings wanted clock).ok (Numeral.allShort_ite_nil.mpr hprinted), rfl,
      ending_executeListing hp _, repairOf_eq_none_iff, ?_, htrace, by rw [Program.trace_quiet],
      rfl, rfl, p.length_steps_quietTrace_le settings.initial, rfl, ?_, ?_⟩
    · intro r hr
      rw [(of_repairOf_eq_some hr).1]
      exact ending_repairListing hp settings.workers
    · exact Int.ofNat_le.mpr (attempts_repairOf_le settings wanted p)
    · intro hsearch
      obtain ⟨r, hr⟩ := Option.ne_none_iff_exists'.mp hsearch
      have hattempts : ((repairOf settings wanted p).map Repair.attempts).getD 0 = r.attempts := by
        rw [show repairOf settings wanted p = some r from hr]
        rfl
      have hone := hattempts ▸ (of_repairOf_eq_some hr).2
      exact Int.ofNat_le.mpr hone
  · have hrun := (yields_run hp settings wanted clock).error
    rw [if_pos hverbose] at hrun
    exact hrun hlong

/-- The listing of the demonstration. -/
def demonstrationListing : String :=
  "nop +0\nacc +1\njmp +4\nacc +3\njmp -3\nacc -99\nacc +1\njmp -4\nacc +6\n"

/-- The demonstration goes round, so that a repair is searched for. -/
theorem run_agrees_with_stages_demonstration :
    (Program.load demonstrationListing).ending = .ok Program.demonstration
    ∧ ∃ report r, (run demonstrationListing { initial := 7, workers := 2 } true
          (Clock.ofReadings [0])).ending = .ok report
      ∧ report.outcome = .infiniteLoop 12
      ∧ report.repair = some r
      ∧ (Program.repairListing demonstrationListing 2).ending = .ok r
      ∧ 1 ≤ report.statistics.repairAttempts ∧ report.statistics.repairAttempts ≤ 4 := by
  have hload : (Program.load demonstrationListing).ending = .ok Program.demonstration := by cbv
  have hloop : (Program.executeListing demonstrationListing 7).ending
      = .ok (.infiniteLoop 12) := by cbv
  obtain ⟨-, hread⟩ := run_agrees_with_stages demonstrationListing { initial := 7, workers := 2 }
    true (Clock.ofReadings [0])
  obtain ⟨report, t, hrun, -, hexecute, hnone, hrepair, -, -, -, -, -, -, hmost, hone⟩ :=
    (hread _ hload).1 (.inl rfl)
  have houtcome : report.outcome = .infiniteLoop 12 := Except.ok.inj (hexecute.symm.trans hloop)
  have hsearch : report.repair ≠ none := by
    rw [ne_eq, hnone, houtcome]
    decide
  obtain ⟨r, hr⟩ := Option.ne_none_iff_exists'.mp hsearch
  exact ⟨hload, report, r, hrun, houtcome, hr, hrepair r hr, hone hsearch, hmost⟩

end Pipeline

end AccumulatorMachine
