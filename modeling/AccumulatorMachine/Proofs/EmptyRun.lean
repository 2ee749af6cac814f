import AccumulatorMachine.Proofs.Stages

/-!
# `AccumulatorMachine.Proofs.EmptyRun`: what comes of a run without a number

A run without a number in the accumulator takes the steps of the run from
`0`. If one of them is an addition, it fails there, and shows the steps
before. Otherwise it goes through all stages that a run from a number goes
through, with the same search.

So there are two lemmas for each stage: one for programs that come to an
addition, and one for those that do not (`Trace.Adds`). For the whole run
these are `ending_runEmpty_of_adds` and `yields_runEmpty`.
-/

set_option autoImplicit false

namespace AccumulatorMachine

open Numeral (AllShort)
open Transcript (Yields)

/-! ### What is shown -/

/-- The integers in the text of a step without accumulators. -/
def Step.shownEmpty (s : Step) : List Int := [s.index, s.pc, s.instruction.argument, s.next]

/-- The integers in the text of an outcome without its accumulator. -/
def Outcome.shownEmpty : Outcome → List Int
  | .halted _ => []
  | .infiniteLoop _ => []
  | .jumpOutOfBounds pc => [pc]

/-- A step is shown without its accumulators, so they do not have to be
short. -/
theorem Shows.text_step_empty (s : Step) : Shows (s.textWith .empty .empty) s.shownEmpty :=
  (Shows.plain s.index).bind fun _ => (Shows.plain s.pc).bind fun _ =>
    (text_instruction s.instruction).bind fun _ => (Shows.pure _).bind fun _ =>
      (Shows.pure _).bind fun _ => (Shows.plain s.next).bind fun _ => .pure _

/-- Of an outcome without its accumulator only the position of a bad jump is
left to show. -/
theorem Shows.text_outcome_empty (o : Outcome) : Shows o.record.emptied.text o.shownEmpty := by
  cases o with
  | halted a => exact .pure _
  | infiniteLoop a => exact .pure _
  | jumpOutOfBounds pc => exact (Shows.plain pc).bind fun _ => .pure _

/-- Taking the accumulator away leaves the kind of the outcome as it is, and
that decides success. -/
@[simp]
theorem OutcomeRecord.succeeded_emptied (r : OutcomeRecord) :
    r.emptied.succeeded = r.succeeded := rfl

namespace Trace

variable {t : Trace}

/-- Whether one of the steps is an addition. -/
def Adds (t : Trace) : Prop := ∃ s ∈ t.steps, s.instruction.opcode = .acc

instance (t : Trace) : Decidable t.Adds := inferInstanceAs (Decidable (∃ s ∈ t.steps, _))

/-- The integers that a verbose run without a number prints: those of the
steps before the first addition, and if there is none, then those of the
outcome and the number of steps. -/
def shownEmpty (t : Trace) : List Int :=
  t.stepsBeforeAddition.flatMap Step.shownEmpty
    ++ if t.Adds then [] else t.outcome.shownEmpty ++ [(t.steps.length : Int)]

/-- Without additions all steps come before the first one. -/
theorem stepsBeforeAddition_of_not_adds (h : ¬t.Adds) : t.stepsBeforeAddition = t.steps := by
  refine List.takeWhile_eq_self_iff.mpr fun s hs => ?_
  exact decide_eq_true fun hacc => h ⟨s, hs, hacc⟩

/-- The steps before an addition are fewer than all steps. -/
theorem length_stepsBeforeAddition_lt_iff :
    t.stepsBeforeAddition.length < t.steps.length ↔ t.Adds := by
  constructor
  · intro hlt
    by_contra h
    rw [stepsBeforeAddition_of_not_adds h] at hlt
    exact Nat.lt_irrefl _ hlt
  · rintro ⟨s, hs, hacc⟩
    refine Nat.lt_of_le_of_ne (List.takeWhile_prefix _).length_le fun heq => ?_
    have hall := List.takeWhile_eq_self_iff.mp ((List.takeWhile_prefix _).eq_of_length heq)
    exact of_decide_eq_true (hall s hs) hacc

end Trace

/-! ### The run of the program -/

namespace Program

variable {p : Program}

/-- What a run without a number does when it has its steps: it fails for
an addition, and closes the run otherwise. -/
def closeEmpty (t : Trace) (verbose : Bool) : Transcript (Nat × OutcomeRecord) := do
  if t.Adds then
    Transcript.fail .emptyAccumulator
  if verbose then
    Transcript.printLine
      (← Transcript.text (Trace.closingOf t.stepsBeforeAddition.length t.outcome.record.emptied))
  Transcript.log (.executed t.stepsBeforeAddition.length t.outcome.record.emptied)
  return (t.stepsBeforeAddition.length, t.outcome.record.emptied)

/-- A run without a number prints steps of the run from `0` and closes
it. -/
theorem executeEmpty_eq (p : Program) (verbose : Bool) :
    p.executeEmpty verbose
      = if verbose then
          (((p.quietTrace 0).stepsBeforeAddition.forM fun s =>
              Transcript.printIndented (s.textWith .empty .empty))
            >>= fun _ => closeEmpty (p.quietTrace 0) verbose)
        else closeEmpty (p.quietTrace 0) verbose := by
  rw [executeEmpty, runFrom_initial, pure_bind]
  simp only [Trace.length_stepsBeforeAddition_lt_iff]
  rfl

/-- An addition to no number fails, and nothing is told of the outcome. -/
theorem closeEmpty_of_adds {t : Trace} (h : t.Adds) (verbose : Bool) :
    closeEmpty t verbose = Transcript.fail .emptyAccumulator := by
  rw [closeEmpty, if_pos h]
  rfl

/-- Without an addition the run is closed as any other, except that the
outcome has no accumulator. -/
theorem yields_closeEmpty {t : Trace} (h : ¬t.Adds) (verbose : Bool) :
    (closeEmpty t verbose).Yields
      (if verbose then t.outcome.shownEmpty ++ [(t.steps.length : Int)] else [])
      (t.steps.length, t.outcome.record.emptied) := by
  have hclosing : Shows (Trace.closingOf t.steps.length t.outcome.record.emptied)
      (t.outcome.shownEmpty ++ [(t.steps.length : Int)]) :=
    (Shows.text_outcome_empty t.outcome).bind fun _ =>
      (Shows.plain t.steps.length).bind fun _ => .pure _
  rw [closeEmpty, if_neg h, Trace.stepsBeforeAddition_of_not_adds h]
  cases verbose with
  | false => exact .of_ending rfl
  | true => exact .text_bind_of_ending hclosing fun _ => rfl

/-- The steps before the first addition are shown in any case, also if the
run fails at that addition. -/
theorem yields_printSteps (t : Trace) :
    (t.stepsBeforeAddition.forM fun s =>
      Transcript.printIndented (s.textWith .empty .empty)).Yields
        (t.stepsBeforeAddition.flatMap Step.shownEmpty) () :=
  .forM (fun s => Transcript.yields_printIndented (Shows.text_step_empty s)) _

/-- A program that comes to an addition has no run without a number. -/
theorem ending_executeEmpty_of_adds (h : (p.quietTrace 0).Adds) {verbose : Bool}
    (hshort : verbose = true → AllShort (p.quietTrace 0).shownEmpty) :
    (p.executeEmpty verbose).ending = .error .emptyAccumulator := by
  rw [executeEmpty_eq, closeEmpty_of_adds h]
  split
  · rename_i hverbose
    have hsteps := hshort hverbose
    rw [Trace.shownEmpty, if_pos h, List.append_nil] at hsteps
    rw [Transcript.ending_bind_of_ok ((yields_printSteps _).ok hsteps)]
    rfl
  · rfl

/-- Any other program has one. -/
theorem yields_executeEmpty (h : ¬(p.quietTrace 0).Adds) (verbose : Bool) :
    (p.executeEmpty verbose).Yields (if verbose then (p.quietTrace 0).shownEmpty else [])
      ((p.quietTrace 0).steps.length, (p.outcome 0).record.emptied) := by
  rw [executeEmpty_eq, Trace.shownEmpty, if_neg h, ← Yields.ite_nil_append_ite_nil]
  exact (yields_printSteps _).ite_bind (yields_closeEmpty h verbose)

end Program

/-! ### The whole run -/

namespace Pipeline

variable {source : String} {settings : Settings} {wanted : Bool} {p : Program}

/-- The integers that a verbose run without a number prints. -/
def shownEmpty (source : String) (settings : Settings) (wanted : Bool) (p : Program) : List Int :=
  p.shown ++ ((p.quietTrace 0).shownEmpty
    ++ if (p.quietTrace 0).Adds then [] else shownAfterTrace source settings wanted p)

/-- What a run without a number tells if it comes to no addition. -/
def emptyRecordOf (settings : Settings) (wanted : Bool) (p : Program) : ReportRecord where
  instructions := p.size
  result := (p.outcome 0).record.emptied
  repair := (repairOf settings wanted p).map Repair.record

/-- What comes after the program is printed. -/
def runEmptyProgram (source : String) (settings : Settings) (wanted : Bool) (clock : Clock)
    (p : Program) : Transcript ReportRecord := do
  let (steps, outcome) ← p.executeEmpty settings.verbose
  let (repair, _) ← finish source settings wanted clock p steps outcome
  return { instructions := p.size, result := outcome, repair := repair.map Repair.record }

/-- The run with the part after the announcement under a name of its own, so
that the two verbosities share one lemma about it. -/
theorem runEmpty_eq_bind (source : String) (settings : Settings) (wanted : Bool) (clock : Clock) :
    runEmpty source settings wanted clock = Program.load source >>= fun p =>
      if settings.verbose then
        announce p >>= fun _ => runEmptyProgram source settings wanted clock p
      else runEmptyProgram source settings wanted clock p :=
  runEmpty_eq source settings wanted clock

/-- A run without a number that comes to no addition tells the same as a run
from `0`, with no accumulator in the outcome, and searches under the same
conditions. -/
theorem yields_runEmpty (hload : (Program.load source).ending = .ok p)
    (h : ¬(p.quietTrace 0).Adds) (hzero : settings.initial = 0) (wanted : Bool) (clock : Clock) :
    (runEmpty source settings wanted clock).Yields
      (if settings.verbose then shownEmpty source settings wanted p else [])
      (emptyRecordOf settings wanted p) := by
  have hsucceeded : (p.outcome 0).record.emptied.succeeded
      = (p.outcome settings.initial).succeeded := by
    rw [OutcomeRecord.succeeded_emptied, Outcome.succeeded_record, hzero]
  have hfinish := yields_finish source settings wanted clock p hsucceeded
  rw [hzero] at hfinish
  rw [runEmpty_eq_bind, shownEmpty, if_neg h, ← Yields.ite_nil_append_ite_nil,
    ← Yields.ite_nil_append_ite_nil, ← List.nil_append (_ ++ _)]
  exact .bind (.of_ending hload) ((yields_announce p).ite_bind
    ((p.yields_executeEmpty h settings.verbose).bind (hfinish.bind_pure _)))

/-- One that comes to an addition fails there. If it is verbose, it has to
get so far: an integer that is too long may come first, and is then what it
fails for. -/
theorem ending_runEmpty_of_adds (hload : (Program.load source).ending = .ok p)
    (h : (p.quietTrace 0).Adds)
    (hshort : settings.verbose = true → AllShort (shownEmpty source settings wanted p))
    (clock : Clock) :
    (runEmpty source settings wanted clock).ending = .error .emptyAccumulator := by
  have hexecute : settings.verbose = true → AllShort p.shown
      ∧ AllShort (p.quietTrace 0).shownEmpty := by
    intro hverbose
    have hall := hshort hverbose
    rw [shownEmpty, if_pos h, List.append_nil, Numeral.allShort_append] at hall
    exact hall
  have hfails := Program.ending_executeEmpty_of_adds h fun hverbose => (hexecute hverbose).2
  have hrun : (runEmptyProgram source settings wanted clock p).ending
      = .error .emptyAccumulator := by
    rw [runEmptyProgram, Transcript.bind_of_error hfails]
  rw [runEmpty_eq_bind, Transcript.ending_bind_of_ok hload]
  split
  · rename_i hverbose
    rw [Transcript.ending_bind_of_ok ((yields_announce p).ok (hexecute hverbose).1), hrun]
  · exact hrun

end Pipeline

end AccumulatorMachine
