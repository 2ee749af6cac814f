import AccumulatorMachine.CommandLine
import AccumulatorMachine.Proofs.Choice
import AccumulatorMachine.Proofs.Detour
import AccumulatorMachine.Proofs.FirstFault
import AccumulatorMachine.Proofs.Stages

/-!
# `AccumulatorMachine.Proofs.ExitStatus`: what the exit status tells

A call takes a listing from a file, or the demonstration, and surveys it
or runs it. What it does is chosen by its words: `Spells cs words` says
which choices they spell, in any order, and `Spells.understood` that they
are understood as those. How the call ends is then found in three steps.

* The listing is refused for a line, and the status is `2`; or it is read
  as a program (`Call.ending_respond_of_line`).
* The survey and the run are each a value with the integers that are
  printed on the way (`yields_survey`, `yields_run`). If none of them is
  too long, then the status is `statusOn` (`Call.ending_respond_of_read`).
* The status is `0` or `1`. A run succeeds if the program halts or a swap
  that it may search for lets it halt, and a survey if a swap does
  (`statusOn_of_run`, `statusOn_of_survey`). Whether a program halts does
  not depend on the accumulator, so for one that does not both have the
  same status (`statusOn_of_not_succeeded`).

`exit_status` puts this together, in terms of the choices.
-/

set_option autoImplicit false

namespace AccumulatorMachine

open Numeral (AllShort Short)
open Transcript (Yields)

namespace Program

variable {p : Program}

/-! ### Programs that a swap lets halt -/

/-- Whether a swap of one instruction lets the program halt. -/
def Repairable (p : Program) : Prop :=
  ∃ i ∈ p.candidates, ∃ q b, p.toggle i = .ok q ∧ (q.execute {}).ending = .ok (.halted b)

/-- A run halts exactly if it succeeds. -/
theorem exists_execute_halted_iff {a : Int} :
    (∃ b, (p.execute { initial := a }).ending = .ok (.halted b))
      ↔ (p.outcome a).succeeded = true := by
  simp only [execute_quiet, Except.ok.injEq]
  cases p.outcome a with
  | halted b => simp [Outcome.succeeded]
  | infiniteLoop b => simp [Outcome.succeeded]
  | jumpOutOfBounds pc => simp [Outcome.succeeded]

/-- Whether a program halts does not depend on the accumulator. -/
theorem succeeded_outcome_eq (p : Program) (a b : Int) :
    (p.outcome a).succeeded = (p.outcome b).succeeded := by
  rw [Bool.eq_iff_iff, succeeded_outcome_iff, succeeded_outcome_iff]
  exact ⟨fun h => h.of_pc_eq rfl, fun h => h.of_pc_eq rfl⟩

/-- Some attempt succeeds exactly if a swap lets the program halt. -/
theorem any_succeeded_attempts_iff :
    p.attempts.any Attempt.succeeded = true ↔ p.Repairable := by
  simp only [attempts, List.any_map, List.any_eq_true, Function.comp_apply, Repairable,
    candidates_eq, List.mem_map]
  constructor
  · rintro ⟨⟨x, i⟩, hentry, hsucceeded⟩
    obtain ⟨b, hb⟩ := exists_execute_halted_iff.mpr hsucceeded
    exact ⟨i, ⟨_, hentry, rfl⟩, _, b, toggle_eq_ok (mem_swappable_iff.mp hentry).1, hb⟩
  · rintro ⟨_, ⟨⟨x, i⟩, hentry, rfl⟩, q, b, hq, hb⟩
    refine ⟨(x, i), hentry, ?_⟩
    rw [eq_swapAt_of_toggle (mem_swappable_iff.mp hentry).1 hq] at hb
    exact exists_execute_halted_iff.mp ⟨b, hb⟩

/-- In terms of the plain machine: some swapped program reaches its end. -/
theorem repairable_iff_exists_repairedBy : p.Repairable ↔ ∃ i a, p.RepairedBy i a := by
  rw [← any_succeeded_attempts_iff, attempts, List.any_map, List.any_eq_true]
  constructor
  · rintro ⟨⟨x, i⟩, hentry, hsucceeded⟩
    obtain ⟨hx, hswap⟩ := mem_swappable_iff.mp hentry
    exact ⟨i, (succeeded_attemptAt_iff_repairedBy hx hswap).mp hsucceeded⟩
  · rintro ⟨i, a, hrepair⟩
    obtain ⟨x, hx, hswap⟩ := hrepair.1
    exact ⟨(x, i), mem_swappable_iff.mpr ⟨hx, hswap⟩,
      (succeeded_attemptAt_iff_repairedBy hx hswap).mpr ⟨a, hrepair⟩⟩

/-- A search finds a repair exactly if a swap lets the program halt. -/
theorem found_quietRepair_iff (workers : Int) :
    (p.quietRepair workers).found = true ↔ p.Repairable := by
  rw [repairable_iff_exists_repairedBy]
  rcases p.quietRepair_cases workers with ⟨i, a, hres, hlow⟩ | ⟨hres, hnone⟩
  · rw [hres]
    exact iff_of_true rfl ⟨i, a, hlow.1⟩
  · rw [hres]
    exact iff_of_false (fun hfound => by cases hfound) fun ⟨i, a, h⟩ => hnone i a h

end Program

namespace CommandLine

/-! ### The listing -/

/-- Whether the arguments name a listing: the demonstration, or a file
whose bytes are the text. -/
inductive Names (a : Arguments) (bytesOf : String → Except FileFault (List UInt8)) :
    String → Prop
  | demo (nothing : a.file = none ∨ a.file = some "") : Names a bytesOf demo
  | file {file : String} {bytes : List UInt8} {text : List Char} (named : a.file = some file)
      (nonempty : file ≠ "") (noNul : '\x00' ∉ (FileName.normal file).toList)
      (readable : bytesOf (FileName.normal file) = .ok bytes)
      (valid : Text.decodeUtf8 bytes = .ok text) :
      Names a bytesOf (String.ofList (Text.unifyLineEnds text))

variable {a : Arguments} {bytesOf : String → Except FileFault (List UInt8)} {source : String}
  {p : Program} {clock : Clock}

/-- The listing that is named is the one that is worked on. Reading it
cannot fail, since its file can be opened and its bytes decoded. -/
theorem Names.ending_obtain (h : Names a bytesOf source) :
    (obtain a bytesOf).ending = .ok source := by
  cases h with
  | demo nothing =>
      have hobtain : obtain a bytesOf = obtain.offerDemo a := by
        rcases nothing with hnone | hempty
        · simp [obtain, hnone]
        · simp [obtain, hempty]
      rw [hobtain, obtain.offerDemo]
      split
      · rfl
      · rfl
  | @file file bytes text named nonempty noNul readable valid =>
      have hobtain : obtain a bytesOf = textOfFile bytesOf file := by
        simp [obtain, named, nonempty]
      have hcontains : ¬(FileName.normal file).toList.contains '\x00' = true := by
        rwa [List.contains_iff_mem]
      rw [hobtain, textOfFile, Transcript.ending_bind_of_ok rfl, if_neg hcontains, readable,
        Transcript.ending_bind_of_ok rfl, valid]
      rfl

/-! ### What is printed -/

/-- A document is printed by one line, so it shows all of its integers or
nothing. -/
theorem yields_printDocument (d : Document) : (printDocument d).Yields d.shown () :=
  .text_bind_of_ending (Shows.render d) fun _ => rfl

/-- The integers that a survey prints. -/
def shownInSurvey (a : Arguments) (p : Program) : List Int :=
  if a.json then (Document.list (p.attempts.map attemptDocument)).shown
  else p.attempts.flatMap Attempt.shown

/-- What a survey prints when it has its attempts. -/
def tellAttempts (a : Arguments) (attempts : List Attempt) : Transcript Unit :=
  if a.json then printDocument (.list (attempts.map attemptDocument))
  else if !(settings a).verbose then attempts.forM Attempt.printIndented
  else pure ()

/-- The survey, with what it does with its attempts in one place. -/
theorem survey_eq (a : Arguments) (source : String) :
    survey a source = Program.load source >>= fun p =>
      p.survey (settings a) >>= fun attempts => tellAttempts a attempts >>= fun _ =>
        pure (if attempts.any Attempt.succeeded then 0 else 1) := by
  unfold survey tellAttempts
  split
  · rfl
  · split
    · rfl
    · rfl

/-- Attempts are told once they are all made, except by a verbose survey,
which has told them by then. -/
theorem yields_tellAttempts (a : Arguments) (attempts : List Attempt) :
    (tellAttempts a attempts).Yields
      (if a.json then (Document.list (attempts.map attemptDocument)).shown
        else if !(settings a).verbose then attempts.flatMap Attempt.shown
        else []) () := by
  unfold tellAttempts
  split
  · exact yields_printDocument _
  · split
    · exact .forM yields_printIndented _
    · exact .of_ending rfl

/-- A survey shows its attempts once: a verbose one while it goes, and
any other one at the end. -/
theorem yields_survey (hp : (Program.load source).ending = .ok p) :
    (survey a source).Yields (shownInSurvey a p)
      (if p.attempts.any Attempt.succeeded then 0 else 1) := by
  have hnumbers : (if (settings a).verbose then p.attempts.flatMap Attempt.shown else [])
      ++ (if a.json then (Document.list (p.attempts.map attemptDocument)).shown
        else if !(settings a).verbose then p.attempts.flatMap Attempt.shown
        else []) = shownInSurvey a p := by
    unfold settings shownInSurvey
    cases a.json with
    | true => simp
    | false => cases a.verbose <;> simp
  rw [survey_eq, ← hnumbers, ← List.nil_append (_ ++ _)]
  exact .bind (.of_ending hp)
    (.bind (p.yields_survey (settings a)) ((yields_tellAttempts a p.attempts).bind_pure _))

/-- What a run comes to. -/
def recordOf (a : Arguments) (p : Program) : ReportRecord where
  instructions := p.size
  result := (p.outcome (settings a).initial).record
  repair := (Pipeline.repairOf (settings a) (!a.noRepair) p).map Repair.record

/-- The integers that are printed of what a run comes to. -/
def shownInReport (a : Arguments) (p : Program) : List Int :=
  if a.json then (recordOf a p).document.shown
  else (p.outcome (settings a).initial).number
    :: ((Pipeline.repairOf (settings a) (!a.noRepair) p).map Repair.shown).getD []

/-- Print what was repaired, if there was a search. -/
def tellRepair : Option RepairRecord → Transcript Unit
  | some repair => do Transcript.printLine ("repair: " ++ (← Transcript.text repair.text))
  | none => pure ()

/-- The end of a run, with the printing in front and the status apart from
it. -/
theorem tell_eq (a : Arguments) (r : ReportRecord) :
    tell a r = (if a.json then printDocument r.document
      else Transcript.text r.result.text >>= fun line =>
        Transcript.printLine ("program exec: " ++ line) >>= fun _ => tellRepair r.repair)
      >>= fun _ => pure (statusOf r) := by
  unfold tell tellRepair
  split
  · rfl
  · simp only [bind_assoc]
    cases r.repair with
    | none => simp
    | some repair => simp

/-- Without a search there is nothing to tell of a repair. -/
theorem yields_tellRepair (repair : Option Repair) :
    (tellRepair (repair.map Repair.record)).Yields ((repair.map Repair.shown).getD []) () := by
  cases repair with
  | none => exact .of_ending rfl
  | some r => exact .text_bind_of_ending (Shows.text_repair r) fun _ => rfl

/-- The end of a run shows the integers of the outcome and of the repair,
and comes to the status of the report, in either format. -/
theorem yields_tell (a : Arguments) (p : Program) :
    (tell a (recordOf a p)).Yields (shownInReport a p) (statusOf (recordOf a p)) := by
  rw [tell_eq]
  refine Yields.bind_pure (a := ()) ?_ _
  unfold shownInReport
  split
  · exact yields_printDocument _
  · exact .text_bind (Shows.text_outcome _) fun line => (yields_tellRepair _).printLine_bind _

/-- The integers that a run prints. -/
def shownInRun (a : Arguments) (source : String) (p : Program) : List Int :=
  (if (settings a).verbose then Pipeline.shown source (settings a) (!a.noRepair) p else [])
    ++ shownInReport a p

/-- A run from a number tells the report of the pipeline. -/
theorem run_of_isSome (hinitial : a.initial.isSome = true) (source : String) (clock : Clock) :
    run a source clock
      = Pipeline.run source (settings a) (!a.noRepair) clock >>= fun r => tell a r.record := by
  simp [run, report, if_pos hinitial, Pipeline.run, Pipeline.runClocked]

/-- A verbose run shows the integers of all stages, and then, as any run,
those of its report. -/
theorem yields_run (hp : (Program.load source).ending = .ok p) (hinitial : a.initial.isSome = true)
    (clock : Clock) :
    (run a source clock).Yields (shownInRun a source p) (statusOf (recordOf a p)) := by
  rw [run_of_isSome hinitial]
  exact .bind (Pipeline.yields_run hp (settings a) (!a.noRepair) clock) (yields_tell a p)

/-- The integers that are printed of a listing that is read. -/
def shown (a : Arguments) (source : String) (p : Program) : List Int :=
  if a.survey then shownInSurvey a p else shownInRun a source p

/-- The status for a program. -/
def statusOn (a : Arguments) (p : Program) : Status :=
  if a.survey then if p.attempts.any Attempt.succeeded then 0 else 1
  else statusOf (recordOf a p)

/-! ### The status of a program -/

/-- The status of a survey is that of its attempts: one of them has to
succeed. Whether the program halts as it is does not matter. -/
theorem statusOn_of_survey (h : a.survey = true) :
    (p.Repairable → statusOn a p = 0) ∧ (¬p.Repairable → statusOn a p = 1) := by
  rw [statusOn, if_pos h, ← Program.any_succeeded_attempts_iff]
  exact ⟨fun hsome => if_pos hsome, fun hnone => if_neg hnone⟩

/-- Telling of a repair does not change whether one was found. -/
@[simp]
theorem found_record (r : Repair) : r.record.found = r.found := by
  cases r <;> rfl

/-- A run succeeds if the program halts, or if a search is wanted and
finds a repair. -/
theorem succeeded_or_found_iff :
    ((recordOf a p).result.succeeded || ((recordOf a p).repair.map RepairRecord.found).getD false)
        = true
      ↔ (p.outcome (settings a).initial).succeeded = true
        ∨ a.noRepair = false ∧ p.Repairable := by
  rw [← Program.found_quietRepair_iff (settings a).workers]
  simp only [recordOf, Outcome.succeeded_record, Pipeline.repairOf, Pipeline.searches]
  by_cases hhalts : (p.outcome (settings a).initial).succeeded = true
  · simp [hhalts]
  · by_cases hwanted : a.noRepair = true
    · simp [hhalts, hwanted]
    · simp [hhalts, hwanted]

/-- The status of a run is that of the program or of a swap, and of a swap
only if the search was not left out. -/
theorem statusOn_of_run (h : a.survey = false) :
    ((p.outcome (settings a).initial).succeeded = true ∨ a.noRepair = false ∧ p.Repairable
      → statusOn a p = 0)
    ∧ (¬((p.outcome (settings a).initial).succeeded = true ∨ a.noRepair = false ∧ p.Repairable)
      → statusOn a p = 1) := by
  rw [statusOn, h, if_neg Bool.false_ne_true, statusOf, ← succeeded_or_found_iff]
  exact ⟨fun hsome => if_pos hsome, fun hnone => if_neg hnone⟩

/-- For a program that does not halt a run that may search and a survey
have the same status. -/
theorem statusOn_of_not_succeeded (hfail : (p.outcome (settings a).initial).succeeded = false)
    (hwanted : a.noRepair = false) :
    (p.Repairable → statusOn a p = 0) ∧ (¬p.Repairable → statusOn a p = 1) := by
  cases hsurvey : a.survey with
  | true => exact statusOn_of_survey hsurvey
  | false =>
      have hrun := statusOn_of_run (p := p) hsurvey
      simpa only [hfail, hwanted, Bool.false_eq_true, false_or, true_and] using hrun

/-- A program that was read has a status that is not that of an error. -/
theorem statusOn_ne_two : statusOn a p ≠ 2 := by
  unfold statusOn statusOf
  split <;> split <;> decide

/-! ### The response -/

/-- What ends with a status keeps it. -/
theorem ending_tellErrors_of_ok {x : Transcript Status} {status : Status}
    (h : x.ending = .ok status) : (tellErrors x).ending = .ok status := by
  unfold tellErrors
  split
  · simp_all
  · simp_all
  · exact h

/-- A refused line is an error of the user. -/
theorem ending_tellErrors_of_line {x : Transcript Status} {e : LineError}
    (h : x.ending = .error (.line e)) : (tellErrors x).ending = .ok 2 := by
  unfold tellErrors
  split
  · rfl
  · rfl
  · simp_all

/-- A call that works on a listing:

- `understood`: its words are understood as the arguments;
- `notDump`, `notCount`: they ask for a survey or a run;
- `accumulator`: a run starts from a number;
- `workers`: there are `0` workers or more;
- `listing`: the arguments name the listing. -/
structure Call (words : List String) (bytesOf : String → Except FileFault (List UInt8))
    (a : Arguments) (initial : Int) (source : String) : Prop where
  understood : Request.ofWords words = .ok (.work a)
  notDump : a.dumpOnly = false
  notCount : a.statsOnly = false
  accumulator : a.survey = false → a.initial = some initial
  workers : ∃ workers, a.workers = some workers ∧ 0 ≤ workers
  listing : Names a bytesOf source

/-- No integer of a listing, and none that is printed, has too many
digits:

- `arguments`: no line has an argument that is too long;
- `lineNumber`: the number of the line that the listing is refused for,
  if there is one, can be printed;
- `printed`: so can the integers that are shown when it is read. -/
structure Writable (a : Arguments) (source : String) : Prop where
  arguments : ∀ line ∈ Text.lines source.toList, ∀ count, ¬Overlong line count
  lineNumber : ∀ k line, FirstFault (Text.lines source.toList) k line → Short (k + 1 : Nat)
  printed : ∀ p, Program.read source = .ok p → AllShort (shown a source p)

namespace Call

variable {words : List String} {initial : Int}

/-- The response of a call is that of its work: the words ask for no help,
and the number of workers is not refused. -/
theorem ending_respond (h : Call words bytesOf a initial source) (clock : Clock) :
    (respond words bytesOf clock).ending = (tellErrors (work a bytesOf clock)).ending := by
  obtain ⟨workers, hworkers, hle⟩ := h.workers
  have hnonneg : ¬workers < 0 := by omega
  simp only [respond, h.understood, serve, hworkers, if_neg hnonneg]

/-- The work is a survey or a run of the listing that is named, since
neither of the two kinds that come first is asked for. -/
theorem work_eq (h : Call words bytesOf a initial source) (clock : Clock) :
    (work a bytesOf clock).ending
      = (if a.survey then survey a source else run a source clock).ending := by
  rw [work, Transcript.ending_bind_of_ok h.listing.ending_obtain, h.notDump, h.notCount]
  rfl

/-- The work on a listing that is read shows some integers. -/
theorem yields (h : Call words bytesOf a initial source) (hread : Program.read source = .ok p)
    (clock : Clock) :
    (if a.survey then survey a source else run a source clock).Yields (shown a source p)
      (statusOn a p) := by
  have hload : (Program.load source).ending = .ok p := by
    rw [Program.load_of_read hread]
  unfold shown statusOn
  split
  · exact yields_survey hload
  · rename_i hrun
    refine yields_run hload ?_ clock
    rw [h.accumulator (Bool.not_eq_true _ ▸ hrun), Option.isSome_some]

/-- A listing that is read is surveyed or run, and nothing that is printed
is too long. -/
theorem ending_respond_of_read (h : Call words bytesOf a initial source)
    (hread : Program.read source = .ok p) (hshort : AllShort (shown a source p)) (clock : Clock) :
    (respond words bytesOf clock).ending = .ok (statusOn a p) := by
  rw [h.ending_respond, ending_tellErrors_of_ok]
  rw [h.work_eq, (h.yields hread clock).ok hshort]

/-- A listing that is refused for a line is an error of the user. -/
theorem ending_respond_of_line {e : LineError} (h : Call words bytesOf a initial source)
    (hread : Program.read source = .error (.line e)) (clock : Clock) :
    (respond words bytesOf clock).ending = .ok 2 := by
  have hload : Program.load source = Transcript.fail (.line e) := Program.load_of_read_error hread
  rw [h.ending_respond, ending_tellErrors_of_line]
  rw [h.work_eq]
  split
  · rw [survey_eq, hload]
    rfl
  · rename_i hrun
    have hinitial := h.accumulator (Bool.not_eq_true _ ▸ hrun)
    rw [run_of_isSome (by rw [hinitial, Option.isSome_some]), Pipeline.run_eq, hload]
    rfl

end Call

/-- Without integers that are too long a listing is refused for a line or
not at all. -/
theorem Writable.exists_line {e : ListingError} (h : Writable a source)
    (hread : Program.read source = .error e) : ∃ fault, e = .line fault := by
  rcases passes_or_exists_firstFault (Text.lines source.toList) with hpass | ⟨k, line, hfault⟩
  · obtain ⟨p, hp⟩ := Program.exists_read_iff.mpr hpass
    cases hp.symm.trans hread
  · obtain ⟨e₀, hrefusal, he₀⟩ := Program.exists_refusal_of_firstFault hfault
    obtain rfl : e = e₀.written := Except.error.inj (hread.symm.trans he₀)
    rcases hrefusal.line_or_overlong with ⟨fault, rfl⟩ | ⟨count, hoverlong, -⟩
    · exact ⟨_, hrefusal.written_eq (h.lineNumber k line hfault)⟩
    · exact absurd hoverlong (h.arguments line (List.mem_of_getElem? hfault.place) count)

/-- A call whose words choose a survey or a run of a listing:

- `spelled`: its words spell the choices;
- `notDump`, `notCount`: neither the canonical form nor the counts are
  asked for;
- `workers`: there are `0` workers or more;
- `listing`: the file that was chosen has the listing, or none was chosen
  and it is the demonstration;
- `writable`: no integer in it, and none that is printed, is too long. -/
structure Chosen (cs : List Choice) (words : List String)
    (bytesOf : String → Except FileFault (List UInt8)) (source : String) : Prop where
  spelled : Spells cs words
  notDump : Choice.dumpOnly ∉ cs
  notCount : Choice.statsOnly ∉ cs
  workers : 0 ≤ workersOf cs
  listing : Names (argumentsOf cs) bytesOf source
  writable : Writable (argumentsOf cs) source

/-- What was chosen is what the call works with. -/
theorem Chosen.call {cs : List Choice} {words : List String} (h : Chosen cs words bytesOf source) :
    Call words bytesOf (argumentsOf cs) (initialOf cs) source where
  understood := h.spelled.understood
  notDump := decide_eq_false h.notDump
  notCount := decide_eq_false h.notCount
  accumulator _ := rfl
  workers := ⟨_, rfl, h.workers⟩
  listing := h.listing

/-- A call whose words choose a survey or a run of a listing, with no
integers that are too long, ends with a status. It is `2` exactly if the
listing is refused. If it is read as a program and no survey was chosen,
then the status is `0` if the program halts from the accumulator that was
chosen, or if it was not chosen to leave the search out and a swap of one
instruction lets the program halt, and `1` otherwise. If a survey was
chosen, then the status is `0` if a swap lets the program halt, and `1`
otherwise. So all calls on listings of a program that does not halt, unless
they leave the search out, end with the same status, whatever else was
chosen. -/
theorem exit_status {cs : List Choice} {words : List String} (h : Chosen cs words bytesOf source)
    (clock : Clock) :
    ((respond words bytesOf clock).ending = .ok 2 ↔ ∃ e, Program.read source = .error e)
    ∧ ∀ p, Program.read source = .ok p →
      (Choice.survey ∉ cs →
        ((∃ b, (p.execute { initial := initialOf cs }).ending = .ok (.halted b))
            ∨ Choice.noRepair ∉ cs ∧ p.Repairable → (respond words bytesOf clock).ending = .ok 0)
        ∧ (¬((∃ b, (p.execute { initial := initialOf cs }).ending = .ok (.halted b))
            ∨ Choice.noRepair ∉ cs ∧ p.Repairable) →
          (respond words bytesOf clock).ending = .ok 1))
      ∧ (Choice.survey ∈ cs →
        (p.Repairable → (respond words bytesOf clock).ending = .ok 0)
        ∧ (¬p.Repairable → (respond words bytesOf clock).ending = .ok 1))
      ∧ ∀ cs' words' bytesOf' source' clock' start,
        Chosen cs' words' bytesOf' source' → Program.read source' = .ok p →
        (¬∃ b, (p.execute { initial := start }).ending = .ok (.halted b)) →
        Choice.noRepair ∉ cs → Choice.noRepair ∉ cs' →
        (respond words' bytesOf' clock').ending = (respond words bytesOf clock).ending := by
  refine ⟨⟨fun htwo => ?_, fun ⟨e, he⟩ => ?_⟩, fun p hp => ?_⟩
  · -- A listing that is read has a status of its own, which is not `2`.
    cases hread : Program.read source with
    | error e => exact ⟨e, rfl⟩
    | ok p =>
        have hstatus := h.call.ending_respond_of_read hread (h.writable.printed p hread) clock
        exact absurd (Except.ok.inj (hstatus.symm.trans htwo)) statusOn_ne_two
  · obtain ⟨fault, rfl⟩ := h.writable.exists_line he
    exact h.call.ending_respond_of_line he clock
  · -- From here on the status is the one of a program that was read.
    rw [h.call.ending_respond_of_read hp (h.writable.printed p hp) clock]
    simp only [Except.ok.injEq, Program.exists_execute_halted_iff]
    refine ⟨fun hrun => ?_, fun hsurvey => statusOn_of_survey (decide_eq_true hsurvey), ?_⟩
    · have hstatus := statusOn_of_run (a := argumentsOf cs) (p := p) (decide_eq_false hrun)
      rw [noRepair_argumentsOf] at hstatus
      exact hstatus
    -- Both calls run a program that does not halt, from whatever accumulator, so both have the
    -- status of its swaps.
    intro cs' words' bytesOf' source' clock' start h' hp' hfail hwanted hwanted'
    rw [h'.call.ending_respond_of_read hp' (h'.writable.printed p hp') clock', Except.ok.injEq]
    rw [Bool.not_eq_true] at hfail
    have hstatus := statusOn_of_not_succeeded (a := argumentsOf cs)
      ((p.succeeded_outcome_eq _ start).trans hfail) (noRepair_argumentsOf.mpr hwanted)
    have hstatus' := statusOn_of_not_succeeded (a := argumentsOf cs')
      ((p.succeeded_outcome_eq _ start).trans hfail) (noRepair_argumentsOf.mpr hwanted')
    by_cases hrepair : p.Repairable
    · rw [hstatus.1 hrepair, hstatus'.1 hrepair]
    · rw [hstatus.2 hrepair, hstatus'.2 hrepair]

/-- A listing that is read has nothing in it that is too long. -/
theorem writable_of_read (hread : Program.read source = .ok p)
    (hshort : AllShort (shown a source p)) : Writable a source := by
  have hpass := Program.exists_read_iff.mp ⟨p, hread⟩
  refine ⟨fun line hline count hoverlong => hoverlong.not_passes (hpass line hline), ?_, ?_⟩
  · intro k line hfault
    exact absurd (hpass line (List.mem_of_getElem? hfault.place)) hfault.fault
  · intro q hq
    rwa [Except.ok.inj (hq.symm.trans hread)]

/-- A line of one column does not pass. -/
theorem not_passes_of_columns {line : List Char} (h : (Text.columns line).length = 1) :
    ¬Passes line := by
  have hcut := Text.cut_columns line
  rintro (hblank | ⟨i, hspelled⟩)
  · rw [(Text.Cut.blanks hblank).columns_eq] at h
    cases h
  · obtain ⟨m, argument, -, -, hpair, -⟩ := Instruction.spelledBy_iff.mp hspelled
    rw [hpair.columns_eq] at h
    cases h

/-- A listing of one such line is refused, and nothing in it is too long. -/
theorem writable_of_columns {line : List Char} (hlines : Text.lines source.toList = [line])
    (hcolumns : (Text.columns line).length = 1) (a : Arguments) :
    Writable a source ∧ ∃ e, Program.read source = .error e := by
  have hfault : ¬Passes line := not_passes_of_columns hcolumns
  have hread : ∃ e, Program.read source = .error e := by
    cases hp : Program.read source with
    | error e => exact ⟨e, rfl⟩
    | ok p =>
        have hpass := Program.exists_read_iff.mp ⟨p, hp⟩ line (by rw [hlines]; simp)
        exact absurd hpass hfault
  refine ⟨⟨fun l hl count hoverlong => ?_, fun k l hfirst => ?_, fun p hp => ?_⟩, hread⟩
  · -- What is too long is in the second of two columns.
    rw [hlines, List.mem_singleton] at hl
    obtain ⟨hcut, -, -, -⟩ := hoverlong
    rw [← hl, hcut.columns_eq] at hcolumns
    cases hcolumns
  · -- The number that is told is that of the only line.
    have hplace := hfirst.place
    rw [hlines] at hplace
    have hk : k = 0 := by
      have hlt := (List.getElem?_eq_some_iff.mp hplace).1
      simpa using hlt
    rw [hk]
    decide
  · obtain ⟨e, he⟩ := hread
    cases he.symm.trans hp

/-! ### Three listings -/

/-- Three files: one that halts as it is, one with a line that is refused,
and the demonstration. -/
def threeFiles (name : String) : Except FileFault (List UInt8) :=
  if name = "short" then .ok "acc +1\n".toUTF8.toList
  else if name = "faulty" then .ok "acc\n".toUTF8.toList
  else .ok demo.toUTF8.toList

/-- A file of a text without other line ends than line feeds has that text
for its listing. -/
theorem names_threeFiles {name text : String} (hfile : a.file = some name) (hnonempty : name ≠ "")
    (hname : FileName.normal name = name) (hnul : '\x00' ∉ name.toList)
    (hbytes : threeFiles name = .ok text.toUTF8.toList)
    (hdecode : Text.decodeUtf8 text.toUTF8.toList = .ok text.toList)
    (hsource : String.ofList (Text.unifyLineEnds text.toList) = text) :
    Names a threeFiles text := by
  have hnames : Names a threeFiles (String.ofList (Text.unifyLineEnds text.toList)) :=
    .file hfile hnonempty (by rwa [hname]) (by rwa [hname]) hdecode
  rwa [hsource] at hnames

/-- The demonstration, but from a file. -/
theorem names_listing (hfile : a.file = some "listing") : Names a threeFiles demo :=
  names_threeFiles hfile (by decide) (by cbv) (by decide) (by cbv) (by cbv) (by cbv)

/-- A listing of one line that is an instruction. -/
theorem names_short (hfile : a.file = some "short") : Names a threeFiles "acc +1\n" :=
  names_threeFiles hfile (by decide) (by cbv) (by decide) (by cbv) (by cbv) (by cbv)

/-- A listing of one line that is none. -/
theorem names_faulty (hfile : a.file = some "faulty") : Names a threeFiles "acc\n" :=
  names_threeFiles hfile (by decide) (by cbv) (by decide) (by cbv) (by cbv) (by cbv)

/-- The demonstration is read as the program of nine instructions. -/
theorem read_demo : Program.read demo = .ok Program.demonstration := by cbv

/-- The short listing is read as a program of one addition. -/
theorem read_short : Program.read "acc +1\n" = .ok (Program.ofList [⟨.acc, 1⟩]) := by cbv

/-- A numeral of one digit. -/
theorem denotes_digit {c : Char} (hc : c.isDigit = true) :
    Denotes [c] (Numeral.denoted false [c]) := by
  refine ⟨false, [c], .bare ⟨by simp, by simpa using hc⟩, ?_, rfl⟩
  rw [List.length_singleton, Numeral.digitLimit]
  decide

/-- A word without a dash in front spells the file. -/
theorem spells_file {name : String} (hdash : name.toList.head? ≠ some '-') :
    Spells [.file name] [name] := .file hdash (by simp) .done

/-- Numbers in the next word and in the same one, a letter for a verbose
run in front, and a flag that changes nothing. -/
theorem chosen_mixed : Chosen [.initial 5, .verbose, .workers 2, .json, .file "listing"]
    ["-a", "5", "-vw2", "--json", "listing"] threeFiles demo where
  spelled := by
    have hjson : Spells [.json, .file "listing"] ["--json", "listing"] :=
      .switch (.long (f := .json) (n := 6) (by decide)) rfl (spells_file (by decide))
    have hworkers : Spells [.verbose, .workers 2, .json, .file "listing"]
        ["-vw2", "--json", "listing"] :=
      .attached (.letters (f := .workers) 1 (by decide)) rfl (denotes_digit (c := '2') rfl) hjson
    exact .next (.letters (f := .acc) 0 (by decide)) rfl (denotes_digit (c := '5') rfl) hworkers
  notDump := by simp
  notCount := by simp
  workers := by decide
  listing := names_listing rfl
  writable := writable_of_read read_demo (of_decide_eq_true (by cbv))

/-- The search is left out. -/
theorem chosen_noRepair : Chosen [.noRepair, .file "listing"] ["--no-repair", "listing"]
    threeFiles demo where
  spelled :=
    .switch (.long (f := .noRepair) (n := 11) (by decide)) rfl (spells_file (by decide))
  notDump := by simp
  notCount := by simp
  workers := by decide
  listing := names_listing rfl
  writable := writable_of_read read_demo (of_decide_eq_true (by cbv))

/-- Nothing but the file is chosen. -/
theorem chosen_short : Chosen [.file "short"] ["short"] threeFiles "acc +1\n" where
  spelled := spells_file (by decide)
  notDump := by simp
  notCount := by simp
  workers := by decide
  listing := names_short rfl
  writable := writable_of_read read_short (of_decide_eq_true (by cbv))

/-- A survey, with its flag cut short. -/
theorem chosen_survey : Chosen [.survey, .file "short"] ["--su", "short"] threeFiles
    "acc +1\n" where
  spelled := .switch (.long (f := .survey) (n := 4) (by decide)) rfl (spells_file (by decide))
  notDump := by simp
  notCount := by simp
  workers := by decide
  listing := names_short rfl
  writable := writable_of_read read_short (of_decide_eq_true (by cbv))

/-- The faulty line has no argument, so nothing in it can be too long. -/
theorem writable_faulty (a : Arguments) :
    Writable a "acc\n" ∧ ∃ e, Program.read "acc\n" = .error e := by
  have hlines : Text.lines "acc\n".toList = ["acc".toList] := by cbv
  exact writable_of_columns hlines (by cbv) a

/-- The same for the file that is refused. -/
theorem chosen_faulty : Chosen [.file "faulty"] ["faulty"] threeFiles "acc\n" where
  spelled := spells_file (by decide)
  notDump := by simp
  notCount := by simp
  workers := by decide
  listing := names_faulty rfl
  writable := (writable_faulty _).1

/-- The demonstration comes back to its first jump. -/
theorem succeeded_outcome_demonstration :
    (Program.demonstration.outcome 0).succeeded = false := by cbv

/-- With one of its jumps swapped it reaches the end. -/
theorem repairable_demonstration : Program.demonstration.Repairable :=
  (Program.found_quietRepair_iff 0).mp (by cbv)

/-- A program that halts, but has nothing to swap. -/
theorem not_repairable_short : ¬(Program.ofList [⟨.acc, 1⟩]).Repairable := by
  rw [← Program.found_quietRepair_iff 0]
  exact Bool.not_eq_true _ ▸ (by cbv)

/-- The demonstration does not halt and can be repaired, so its status
depends on whether a search is left out. The other program halts and
cannot be repaired, so its status depends on whether there is a survey. -/
theorem exit_status_demonstration :
    (respond ["-a", "5", "-vw2", "--json", "listing"] threeFiles (Clock.ofReadings [0])).ending
      = .ok 0
    ∧ (respond ["--no-repair", "listing"] threeFiles (Clock.ofReadings [0])).ending = .ok 1
    ∧ (respond ["short"] threeFiles (Clock.ofReadings [0])).ending = .ok 0
    ∧ (respond ["--su", "short"] threeFiles (Clock.ofReadings [0])).ending = .ok 1
    ∧ (respond ["faulty"] threeFiles (Clock.ofReadings [0])).ending = .ok 2 := by
  have hmixed := ((exit_status chosen_mixed (Clock.ofReadings [0])).2 _ read_demo).1 (by simp)
  have hnoRepair := ((exit_status chosen_noRepair (Clock.ofReadings [0])).2 _ read_demo).1 (by simp)
  have hshort := ((exit_status chosen_short (Clock.ofReadings [0])).2 _ read_short).1 (by simp)
  have hsurvey := ((exit_status chosen_survey (Clock.ofReadings [0])).2 _ read_short).2.1 (by simp)
  have hfaulty := (exit_status chosen_faulty (Clock.ofReadings [0])).1.mpr (writable_faulty {}).2
  refine ⟨hmixed.1 (.inr ⟨by simp, repairable_demonstration⟩), hnoRepair.2 ?_,
    hshort.1 (.inl ⟨1, by cbv⟩), hsurvey.2 not_repairable_short, hfaulty⟩
  rintro (hhalts | ⟨hwanted, -⟩)
  · rw [Program.exists_execute_halted_iff, Program.succeeded_outcome_eq _ _ 0,
      succeeded_outcome_demonstration] at hhalts
    cases hhalts
  · exact hwanted (by simp)

end CommandLine

end AccumulatorMachine
