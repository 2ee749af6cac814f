import AccumulatorMachine.Pipeline

/-!
# `AccumulatorMachine.EmptyStart`: runs without a number in the accumulator

The accumulator decides nothing about where a run goes. So a run can be
started without a number in it: it takes the same turns as a run from
`0`, up to the first `acc`, which has nothing to add to and fails. A
run that comes to no `acc` ends as the one from `0` does, with an empty
accumulator in place of the number.
-/

set_option autoImplicit false

namespace AccumulatorMachine

/-- The steps before the first `acc`. -/
def Trace.stepsBeforeAddition (t : Trace) : List Step :=
  t.steps.takeWhile fun s => s.instruction.opcode ≠ .acc

/-- Run a program without a number in the accumulator. Tells the number
of steps and how the run ended. -/
def Program.executeEmpty (p : Program) (verbose : Bool) : Transcript (Nat × OutcomeRecord) := do
  let t ← p.runFrom false 0 (State.initial p.size 0)
  let steps := t.stepsBeforeAddition
  if verbose then
    steps.forM fun s => do
      Transcript.printLine ("  " ++ (← Transcript.text (s.textWith .empty .empty)))
  if steps.length < t.steps.length then
    Transcript.fail .emptyAccumulator
  let outcome := t.outcome.record.emptied
  if verbose then
    Transcript.printLine (← Transcript.text (Trace.closingOf steps.length outcome))
  Transcript.log (.executed steps.length outcome)
  return (steps.length, outcome)

namespace Pipeline

/-- The stages of a run without a number in the accumulator, and what is
handed on of its report. The attempts of the search start from `0`. -/
def reportEmpty {m : Type → Type} [Monad m] [MonadLiftT Transcript m] (timer : Timer m)
    (source : String) (settings : Settings) (wanted : Bool) : m ReportRecord := do
  let (program, (_, outcome), repair, _) ←
    runStages timer source settings wanted (·.executeEmpty settings.verbose) id
  return { instructions := program.size, result := outcome, repair := repair.map Repair.record }

/-- Read a listing, run its program without a number in the accumulator,
and search for a repair if the program does not halt and `wanted` says
so. -/
def runEmpty (source : String) (settings : Settings) (wanted : Bool) (clock : Clock) :
    Transcript ReportRecord :=
  Prod.fst <$> (reportEmpty clock.timer source settings wanted).run 0

end Pipeline

end AccumulatorMachine
