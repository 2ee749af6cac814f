import AccumulatorMachine.Proofs.EmptyRun
import AccumulatorMachine.Proofs.ExitStatus
import AccumulatorMachine.Proofs.Silent
import AccumulatorMachine.Proofs.VerboseFlag

/-!
# `AccumulatorMachine.Proofs.VerboseCall`: what the verbose flag changes of a call

A verbose call prints more than the same call without the flag, and all
of it comes first: `x.Extends y before` says that `x` prints `before` and
then what `y` prints, and ends as `y` does. If the computations go on in
the same way, that stays so (`Extends.bind`).

* The listing is obtained from a file without printing.
* The canonical form, the counts and the survey do not depend on the flag
  (`workOn_eq`). A survey prints its attempts in two places, but nothing
  comes in between (`survey_eq_attempts`), and it uses neither the
  accumulator nor the number of workers.
* A run comes to a record and then tells it. If it is not verbose it
  prints nothing before (`silent_stage`), and the record is the same with
  the flag unless an integer is too long to be printed (`ending_stage`).

`verbose_call_observes` puts this together.
-/

set_option autoImplicit false

namespace AccumulatorMachine

open Numeral (AllShort)
open Transcript (Silent)

variable {α β : Type}

namespace Transcript

/-! ### Computations that print more -/

/-- Whether a computation prints some texts and then what another one
prints, and ends as that one does. -/
structure Extends (x y : Transcript α) (before : List String) : Prop where
  ending : x.ending = y.ending
  printed : x.printed = before ++ y.printed

namespace Extends

variable {x y : Transcript α} {before : List String}

/-- A computation extends itself by nothing. -/
theorem of_eq (h : x = y) : x.Extends y [] := ⟨by rw [h], by rw [h]; rfl⟩

/-- All that is printed comes before nothing. -/
theorem of_silent (h : x.ending = y.ending) (hy : y.Silent) : x.Extends y x.printed :=
  ⟨h, by rw [hy, List.append_nil]⟩

/-- Computations that go on in the same way. -/
theorem bind (h : x.Extends y before) (f : α → Transcript β) :
    (x >>= f).Extends (y >>= f) before := by
  obtain ⟨hending, hprinted⟩ := h
  cases hy : y.ending with
  | ok a =>
      have hx : x.ending = .ok a := hending.trans hy
      constructor
      · rw [ending_bind_of_ok hx, ending_bind_of_ok hy]
      · rw [printed_bind hx, printed_bind hy, hprinted, List.append_assoc]
  | error e =>
      have hx : x.ending = .error e := hending.trans hy
      rw [bind_of_error hx, bind_of_error hy]
      exact ⟨rfl, hprinted⟩

/-- Nothing is printed before computations that begin silently with the
same value. -/
theorem silent_bind {x' y' : Transcript β} {b : β} {f g : β → Transcript α} (hx' : x'.Silent)
    (hy' : y'.Silent) (hx : x'.ending = .ok b) (hy : y'.ending = .ok b)
    (h : (f b).Extends (g b) before) : (x' >>= f).Extends (y' >>= g) before := by
  constructor
  · rw [ending_bind_of_ok hx, ending_bind_of_ok hy, h.ending]
  · rw [printed_bind hx, printed_bind hy, hx', hy', h.printed]
    rfl

/-- All that is added comes before the output of the other. -/
theorem stdout_eq (h : x.Extends y before) : x.stdout = String.join before ++ y.stdout := by
  rw [Transcript.stdout_eq, Transcript.stdout_eq, h.printed, String.join_append]

end Extends

end Transcript

namespace CommandLine

variable {a a' : Arguments} {bytesOf : String → Except FileFault (List UInt8)} {source : String}
  {p : Program} {x y : Transcript Status} {before : List String}

/-! ### What is not a matter of the flag -/

/-- Errors are told in the same way. -/
theorem extends_tellErrors (h : x.Extends y before) :
    (tellErrors x).Extends (tellErrors y) before := by
  obtain ⟨xs, ending⟩ := x
  obtain ⟨ys, ending'⟩ := y
  obtain ⟨hending, hprinted⟩ := h
  cases hending
  -- A complaint does not go where the other texts are printed, so both calls add the same.
  have hcomplaint : ∀ message,
      (Transcript.mk (xs ++ (refuse message).entries) (refuse message).ending).Extends
        ⟨ys ++ (refuse message).entries, (refuse message).ending⟩ before := by
    intro message
    refine ⟨rfl, ?_⟩
    show (xs ++ [_]).filterMap _ = before ++ (ys ++ [_]).filterMap _
    rw [List.filterMap_append, List.filterMap_append, ← List.append_assoc]
    exact congrArg (· ++ []) hprinted
  cases ending with
  | ok status => exact ⟨rfl, hprinted⟩
  | error failure =>
      cases failure with
      | line e => exact hcomplaint e.message
      | file e => exact hcomplaint e.message
      | _ => exact ⟨rfl, hprinted⟩

/-- The text of a file is obtained without printing. -/
theorem silent_obtain (h : ∃ file, a.file = some file ∧ file ≠ "") : (obtain a bytesOf).Silent := by
  obtain ⟨file, hfile, hne⟩ := h
  simp only [obtain, hfile, if_neg hne, textOfFile]
  refine (Silent.log _).bind fun _ => ?_
  split
  · exact .fail _
  · exact (Silent.ofExcept _ _).bind fun _ => (Silent.ofExcept _ _).bind fun _ => .pure _

/-- What is done with a listing. -/
def workOn (a : Arguments) (source : String) (clock : Clock) : Transcript Status :=
  if a.dumpOnly then dump a source
  else if a.statsOnly then count a source
  else if a.survey then survey a source
  else run a source clock

/-- The listing is obtained first, and in the same way for all kinds of
work. -/
theorem work_eq_workOn (a : Arguments) (bytesOf : String → Except FileFault (List UInt8))
    (clock : Clock) :
    work a bytesOf clock = obtain a bytesOf >>= fun source => workOn a source clock := rfl

/-- A call on a listing in a file:

- `understood`: its words are understood as the arguments;
- `workers`: there are `0` workers or more;
- `file`: the arguments name a file;
- `listing`: the text of the file is the listing. -/
structure FileCall (words : List String) (bytesOf : String → Except FileFault (List UInt8))
    (a : Arguments) (source : String) : Prop where
  understood : Request.ofWords words = .ok (.work a)
  workers : ∃ workers, a.workers = some workers ∧ 0 ≤ workers
  file : ∃ file, a.file = some file ∧ file ≠ ""
  listing : Names a bytesOf source

/-- The same file has the same listing. -/
theorem Names.of_file_eq (h : Names a bytesOf source) (hfile : a'.file = a.file) :
    Names a' bytesOf source := by
  cases h with
  | demo nothing => exact .demo (by rwa [hfile])
  | file named nonempty noNul readable valid =>
      exact .file (hfile.trans named) nonempty noNul readable valid

namespace FileCall

variable {words words' : List String} {clock clock' : Clock}

/-- With the flag in front of them, the words of the call ask for the same
work, verbosely. -/
theorem understood_verbose (h : FileCall words bytesOf a source) :
    Request.ofWords ("-v" :: words) = .ok (.work a.verbosely) := by
  rw [ofWords_verbose, h.understood]
  rfl

/-- The response to such a call is that of its work: it asks for no help,
and its number of workers is one that is served. -/
theorem respond_eq (h : FileCall words bytesOf a source) (clock : Clock) :
    (respond words bytesOf clock).ending = (tellErrors (work a bytesOf clock)).ending
      ∧ (respond words bytesOf clock).stdout = (tellErrors (work a bytesOf clock)).stdout := by
  obtain ⟨workers, hworkers, hle⟩ := h.workers
  have hnonneg : ¬workers < 0 := Int.not_lt.mpr hle
  simp only [respond, h.understood, serve, hworkers, if_neg hnonneg, and_self]

/-- If the work on the listing prints more in one call than in another
one, and ends in the same way, so do the calls. -/
theorem respond_extends (h : FileCall words bytesOf a source)
    (h' : FileCall words' bytesOf a' source)
    (hwork : (workOn a' source clock').Extends (workOn a source clock) before) :
    (respond words' bytesOf clock').ending = (respond words bytesOf clock).ending
      ∧ (respond words' bytesOf clock').stdout
        = String.join before ++ (respond words bytesOf clock).stdout := by
  -- The listing is obtained twice, silently, and is the same.
  have hall : (tellErrors (work a' bytesOf clock')).Extends (tellErrors (work a bytesOf clock))
      before := by
    rw [work_eq_workOn, work_eq_workOn]
    exact extends_tellErrors (.silent_bind (silent_obtain h'.file) (silent_obtain h.file)
      h'.listing.ending_obtain h.listing.ending_obtain hwork)
  rw [(h.respond_eq clock).1, (h.respond_eq clock).2, (h'.respond_eq clock').1,
    (h'.respond_eq clock').2]
  exact ⟨hall.ending, hall.stdout_eq⟩

end FileCall

/-! ### Canonical form, counts and surveys -/

/-- Attempts are made with settings of their own. -/
theorem attempt_eq_attempt (p : Program) (i : Nat) (settings : Settings) :
    p.attempt i settings = p.attempt i {} := by
  simp only [Program.attempt, Program.execute_quiet]

/-- A survey makes the attempts and then prints them, whether it is
verbose or not. -/
theorem survey_eq_attempts (a : Arguments) (source : String) :
    survey a source = Program.load source >>= fun p =>
      (p.candidates.mapM fun (i : Nat) => p.attempt i {}) >>= fun attempts =>
        (if a.json then printDocument (.list (attempts.map attemptDocument))
          else attempts.forM Attempt.printIndented) >>= fun _ =>
            pure (if attempts.any Attempt.succeeded then 0 else 1) := by
  rw [survey_eq]
  refine congrArg (Program.load source >>= ·) (funext fun p => ?_)
  have hattempts : p.candidates.mapM (fun (i : Nat) => p.attempt i (settings a))
      = p.candidates.mapM fun (i : Nat) => p.attempt i {} :=
    congrArg (p.candidates.mapM ·) (funext fun i => attempt_eq_attempt p i _)
  unfold Program.survey tellAttempts
  rw [hattempts]
  cases hjson : a.json with
  | true => simp [settings, hjson]
  | false =>
      cases hverbose : a.verbose with
      | true => simp [settings, hjson, hverbose]
      | false => simp [settings, hjson, hverbose]

/-- The canonical form, the counts and the survey depend on the listing
and on whether they are printed as JSON. -/
theorem workOn_eq (a a' : Arguments) (hjson : a'.json = a.json) (hdump : a'.dumpOnly = a.dumpOnly)
    (hstats : a'.statsOnly = a.statsOnly) (hsurvey : a'.survey = a.survey)
    (h : a.dumpOnly = true ∨ a.statsOnly = true ∨ a.survey = true) (source : String)
    (clock clock' : Clock) : workOn a' source clock' = workOn a source clock := by
  unfold workOn
  rw [hdump, hstats, hsurvey]
  split
  · rw [dump, dump, hjson]
  · split
    · rw [count, count, hjson]
    · split
      · rw [survey_eq_attempts, survey_eq_attempts, hjson]
      · simp_all

/-- If no other kind of work is asked for, the listing is run. -/
theorem workOn_of_run (h : ¬(a.dumpOnly = true ∨ a.statsOnly = true ∨ a.survey = true))
    (source : String) (clock : Clock) : workOn a source clock = run a source clock := by
  simp_all [workOn]

/-! ### Runs -/

/-- What a run comes to before it tells of it. -/
def stage (a : Arguments) (source : String) (clock : Clock) : Transcript ReportRecord :=
  if a.initial.isSome then
    Report.record <$> Pipeline.run source (settings a) (!a.noRepair) clock
  else Pipeline.runEmpty source (settings a) (!a.noRepair) clock

/-- A run is its stages and then the end, which prints the same whether or
not the stages printed. -/
theorem run_eq (a : Arguments) (source : String) (clock : Clock) :
    run a source clock = stage a source clock >>= tell a := by
  unfold stage
  split
  · rename_i hnumber
    rw [run_of_isSome hnumber, bind_map_left]
  · rename_i hempty
    simp [run, report, hempty, Pipeline.runEmpty]

/-- A run that is not verbose prints nothing before it tells what it came
to. -/
theorem silent_stage (h : (settings a).verbose = false) (source : String) (clock : Clock) :
    (stage a source clock).Silent := by
  unfold stage
  split
  · exact (Pipeline.silent_run source h _ clock).map _
  · exact Pipeline.silent_runEmpty source h _ clock

/-- The integers that a verbose run prints before it tells what it came
to. -/
def shownByStage (a : Arguments) (source : String) (p : Program) : List Int :=
  if a.initial.isSome then Pipeline.shown source (settings a) (!a.noRepair) p
  else Pipeline.shownEmpty source (settings a) (!a.noRepair) p

/-- How a run comes to its record: it fails if it begins without a number
and comes to an addition. -/
def endingOf (a : Arguments) (p : Program) : Except Failure ReportRecord :=
  if a.initial.isSome then .ok (recordOf a p)
  else if (p.quietTrace 0).Adds then .error .emptyAccumulator
  else .ok (Pipeline.emptyRecordOf (settings a) (!a.noRepair) p)

/-- Neither the flag nor the clock matters to the record. -/
theorem ending_stage (hload : (Program.load source).ending = .ok p)
    (hshort : (settings a).verbose = true → AllShort (shownByStage a source p)) (clock : Clock) :
    (stage a source clock).ending = endingOf a p := by
  unfold shownByStage at hshort
  unfold stage endingOf
  split
  · rename_i hnumber
    rw [if_pos hnumber] at hshort
    have hrun := Pipeline.yields_run hload (settings a) (!a.noRepair) clock
    rw [Transcript.ending_map, hrun.ok (Numeral.allShort_ite_nil.mpr hshort)]
    rfl
  · rename_i hempty
    rw [if_neg hempty] at hshort
    -- A run without a number is compared with one from `0`, which is what its settings say.
    have hzero : (settings a).initial = 0 := by
      rw [settings, Option.not_isSome_iff_eq_none.mp hempty]
      rfl
    split
    · rename_i hadds
      exact Pipeline.ending_runEmpty_of_adds hload hadds hshort clock
    · rename_i hadds
      have hrun := Pipeline.yields_runEmpty hload hadds hzero (!a.noRepair) clock
      exact hrun.ok (Numeral.allShort_ite_nil.mpr hshort)

/-- A listing that is not read leaves no record. -/
theorem ending_stage_of_error {e : Failure} (hload : (Program.load source).ending = .error e)
    (a : Arguments) (clock : Clock) : (stage a source clock).ending = .error e := by
  have hfails := Pipeline.load_eq_fail hload
  unfold stage
  split
  · rw [Pipeline.run_eq, hfails]
    rfl
  · rw [Pipeline.runEmpty_eq, hfails]
    rfl

/-- With the flag on, a run prints some texts and then what it prints
without it. -/
theorem run_extends (hquiet : a.verbose = false)
    (hshort : a.json = true
      ∨ ∀ p, Program.read source = .ok p → AllShort (shownByStage a source p))
    (clock clock' : Clock) :
    (run a.verbosely source clock').Extends (run a source clock)
      (stage a.verbosely source clock').printed := by
  have hsilent : (settings a).verbose = false := by rw [settings, hquiet]; rfl
  have hending : (stage a.verbosely source clock').ending = (stage a source clock).ending := by
    cases hread : Program.read source with
    | error e =>
        have hload : (Program.load source).ending = .error e.failure := by
          rw [Program.load_of_read_error hread]
          rfl
        rw [ending_stage_of_error hload, ending_stage_of_error hload]
    | ok p =>
        have hload : (Program.load source).ending = .ok p := by
          rw [Program.load_of_read hread]
        have hshown : (settings a.verbosely).verbose = true
            → AllShort (shownByStage a.verbosely source p) := by
          -- A run that is told as JSON is not verbose, even with the flag.
          intro hverbose
          rcases hshort with hjson | hshort
          · simp [settings, Arguments.verbosely, hjson] at hverbose
          · exact hshort p hread
        rw [ending_stage hload hshown, ending_stage hload (by simp [hsilent])]
        rfl
  rw [run_eq, run_eq]
  exact (Transcript.Extends.of_silent hending (silent_stage hsilent source clock)).bind _

/-! ### The flag -/

/-- With the flag on, the work on a listing prints some texts and then
what it prints without the flag. -/
theorem exists_workOn_extends (hquiet : a.verbose = false)
    (hshort : ∀ p, Program.read source = .ok p → AllShort (shownByStage a source p))
    (clock clock' : Clock) :
    ∃ before, (workOn a.verbosely source clock').Extends (workOn a source clock) before := by
  by_cases hflag : a.dumpOnly = true ∨ a.statsOnly = true ∨ a.survey = true
  · exact ⟨[], .of_eq (workOn_eq a a.verbosely rfl rfl rfl rfl hflag source clock clock')⟩
  · have hflag' : ¬(a.verbosely.dumpOnly = true ∨ a.verbosely.statsOnly = true
        ∨ a.verbosely.survey = true) := hflag
    rw [workOn_of_run hflag, workOn_of_run hflag']
    exact ⟨_, run_extends hquiet (.inr hshort) clock clock'⟩

/-- Apart from runs that are told as text, the flag adds nothing. -/
theorem workOn_extends_nil (hquiet : a.verbose = false)
    (h : a.json = true ∨ a.dumpOnly = true ∨ a.statsOnly = true ∨ a.survey = true)
    (source : String) (clock clock' : Clock) :
    (workOn a.verbosely source clock').Extends (workOn a source clock) [] := by
  by_cases hflag : a.dumpOnly = true ∨ a.statsOnly = true ∨ a.survey = true
  · exact .of_eq (workOn_eq a a.verbosely rfl rfl rfl rfl hflag source clock clock')
  · have hjson : a.json = true := h.resolve_right hflag
    have hflag' : ¬(a.verbosely.dumpOnly = true ∨ a.verbosely.statsOnly = true
        ∨ a.verbosely.survey = true) := hflag
    have hsilent : (stage a.verbosely source clock').Silent := by
      refine silent_stage ?_ source clock'
      simp [settings, Arguments.verbosely, hjson]
    rw [workOn_of_run hflag, workOn_of_run hflag', ← show _ = [] from hsilent]
    exact run_extends hquiet (.inl hjson) clock clock'

/-- Take a call on a listing in a file, without the verbose flag, and one
that is the same but for the flag; the words of the first one with the
flag in front ask for it. If they ask for JSON, the canonical form, the
counts or a survey, both end in the same way and print the same. If the
integers that a verbose run prints before it tells what it came to can be
written, both end in the same way, and the one with the flag prints some
text and then what the other one prints. A survey is the same from any
accumulator or none, with any number of workers, and with the flag or
without it. -/
theorem verbose_call_observes {words words' : List String} (h : FileCall words bytesOf a source)
    (hquiet : a.verbose = false)
    (h' : Request.ofWords words' = .ok (.work { a with verbose := true })) (clock clock' : Clock) :
    Request.ofWords ("-v" :: words) = .ok (.work { a with verbose := true })
    ∧ (a.json = true ∨ a.dumpOnly = true ∨ a.statsOnly = true ∨ a.survey = true →
        (respond words' bytesOf clock').ending = (respond words bytesOf clock).ending
        ∧ (respond words' bytesOf clock').stdout = (respond words bytesOf clock).stdout)
    ∧ ((∀ p, Program.read source = .ok p → AllShort (shownByStage a source p)) →
        (respond words' bytesOf clock').ending = (respond words bytesOf clock).ending
        ∧ ∃ text, (respond words' bytesOf clock').stdout
            = text ++ (respond words bytesOf clock).stdout)
    ∧ (a.survey = true → ∀ words'' clock'' initial verbose workers, 0 ≤ workers →
        Request.ofWords words''
          = .ok (.work { a with initial, verbose, workers := some workers }) →
        (respond words'' bytesOf clock'').ending = (respond words bytesOf clock).ending
        ∧ (respond words'' bytesOf clock'').stdout = (respond words bytesOf clock).stdout) := by
  have hcall : FileCall words' bytesOf a.verbosely source :=
    ⟨h', h.workers, h.file, h.listing.of_file_eq rfl⟩
  refine ⟨h.understood_verbose, ?_, ?_, ?_⟩
  · intro hflag
    -- These kinds of work do not look at the flag, so that nothing is added.
    have hrespond := h.respond_extends hcall (workOn_extends_nil hquiet hflag source clock clock')
    rwa [String.join_nil, String.empty_append] at hrespond
  · intro hshort
    obtain ⟨before, hwork⟩ := exists_workOn_extends hquiet hshort clock clock'
    obtain ⟨hending, hstdout⟩ := h.respond_extends hcall hwork
    exact ⟨hending, _, hstdout⟩
  · intro hsurvey words'' clock'' initial verbose workers hworkers hunderstood
    have hcall' : FileCall words'' bytesOf { a with initial, verbose, workers := some workers }
        source :=
      ⟨hunderstood, ⟨workers, rfl, hworkers⟩, h.file, h.listing.of_file_eq rfl⟩
    -- A survey looks at none of the three.
    have hwork := workOn_eq a { a with initial, verbose, workers := some workers } rfl rfl rfl rfl
      (.inr (.inr hsurvey)) source clock clock''
    have hrespond := h.respond_extends hcall' (.of_eq hwork)
    rwa [String.join_nil, String.empty_append] at hrespond

/-- A file of one instruction that jumps to itself. -/
def loopFile : String → Except FileFault (List UInt8) := fun _ => .ok "jmp +0\n".toUTF8.toList

/-- A file of one line that goes round. -/
theorem names_loopFile (h : a.file = some "loop") : Names a loopFile "jmp +0\n" := by
  have hname : FileName.normal "loop" = "loop" := by cbv
  have hdecode : Text.decodeUtf8 "jmp +0\n".toUTF8.toList = .ok "jmp +0\n".toList := by cbv
  have hsource : String.ofList (Text.unifyLineEnds "jmp +0\n".toList) = "jmp +0\n" := by cbv
  have hfile : Names a loopFile (String.ofList (Text.unifyLineEnds "jmp +0\n".toList)) :=
    .file h (by decide) (by rw [hname]; decide) rfl hdecode
  rwa [hsource] at hfile

/-- The jump to itself, run from `5` by two clocks, and surveyed without a
number in the accumulator. -/
theorem verbose_call_observes_demonstration :
    (respond ["-v", "loop", "-a", "5"] loopFile (Clock.ofReadings [7])).ending
        = (respond ["loop", "-a", "5"] loopFile (Clock.ofReadings [0])).ending
      ∧ (∃ text, (respond ["-v", "loop", "-a", "5"] loopFile (Clock.ofReadings [7])).stdout
        = text ++ (respond ["loop", "-a", "5"] loopFile (Clock.ofReadings [0])).stdout)
      ∧ (respond ["-v", "--survey", "loop"] loopFile (Clock.ofReadings [0])).stdout
        = (respond ["--survey", "loop"] loopFile (Clock.ofReadings [0])).stdout
      ∧ (respond ["loop", "--acc=--", "-w3", "--survey"] loopFile (Clock.ofReadings [0])).stdout
        = (respond ["--survey", "loop"] loopFile (Clock.ofReadings [0])).stdout := by
  have hread : Program.read "jmp +0\n" = .ok (.ofList [⟨.jmp, 0⟩]) := by cbv
  have hrun : FileCall ["loop", "-a", "5"] loopFile { file := some "loop", initial := some 5 }
      "jmp +0\n" :=
    ⟨by cbv, ⟨0, rfl, by decide⟩, ⟨"loop", rfl, by decide⟩, names_loopFile rfl⟩
  have hsurvey : FileCall ["--survey", "loop"] loopFile { file := some "loop", survey := true }
      "jmp +0\n" :=
    ⟨by cbv, ⟨0, rfl, by decide⟩, ⟨"loop", rfl, by decide⟩, names_loopFile rfl⟩
  have hshort : ∀ p, Program.read "jmp +0\n" = .ok p →
      AllShort (shownByStage { file := some "loop", initial := some 5 } "jmp +0\n" p) := by
    intro p hp
    cases hread.symm.trans hp
    have hlines : Pipeline.countLines "jmp +0\n" = 1 := rfl
    have hshown : Pipeline.shown "jmp +0\n" { initial := 5 } true (.ofList [⟨.jmp, 0⟩])
        = [0, 0, 0, 0, 0, 5, 5, 0, 5, 1, 0, 0, 0, 0, 1, 7, 1, 1, 1] := by
      simp only [Pipeline.shown, Pipeline.shownAfterTrace, Statistics.shown, Pipeline.sizes, hlines]
      cbv
    show AllShort (Pipeline.shown "jmp +0\n" { initial := 5 } true (.ofList [⟨.jmp, 0⟩]))
    rw [hshown]
    decide
  obtain ⟨-, -, hverbose, -⟩ :=
    verbose_call_observes hrun rfl hrun.understood_verbose (Clock.ofReadings [0])
      (Clock.ofReadings [7])
  obtain ⟨-, hflag, -, hany⟩ :=
    verbose_call_observes hsurvey rfl hsurvey.understood_verbose (Clock.ofReadings [0])
      (Clock.ofReadings [0])
  obtain ⟨hending, hstdout⟩ := hverbose hshort
  obtain ⟨-, hsame⟩ := hflag (.inr (.inr (.inr rfl)))
  obtain ⟨-, hother⟩ := hany rfl ["loop", "--acc=--", "-w3", "--survey"] (Clock.ofReadings [0])
    none false 3 (by decide) (by cbv)
  exact ⟨hending, hstdout, hsame, hother⟩

end CommandLine

end AccumulatorMachine
