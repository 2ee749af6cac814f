import AccumulatorMachine.Listing
import AccumulatorMachine.Machine
import AccumulatorMachine.Transcript

/-!
# `AccumulatorMachine.Execution`: runs of a program

A run takes turns until the machine ends. `loopFrom` takes the turns
from any state and counts those that moved; every such turn marks an
address for good, so a run ends. A `Step` is made of such a turn only
if somebody wants it: it is printed when it is taken if the run is
verbose, and kept if the run is recorded. A failure to print leaves the
steps before it printed.

`execute` runs a program from its first instruction and tells the
outcome. `executeTraced` is the same run recorded: it tells the steps,
how many there were, the length of the program, and the accumulator at
the start. `trace` is the part of a recording that depends on the run.
-/

set_option autoImplicit false

namespace AccumulatorMachine

/-- How programs are to be run: the accumulator at the start, whether
to print what happens, and how many attempts of a search may be under
way at a time. -/
structure Settings where
  initial : Int := 0
  verbose : Bool := false
  workers : Int := 0
deriving DecidableEq, Repr

/-- A turn that moved: how many were taken before it, the instruction
and its address, the accumulator before and after, and the address
that comes next. -/
structure Step where
  index : Int
  pc : Int
  instruction : Instruction
  before : Int
  after : Int
  next : Int
deriving DecidableEq, Repr

/-- The text of a step, with the given accumulators. -/
def Step.textWith (before after : Register) (s : Step) : Except NumeralError String := do
  return "[step " ++ (← Numeral.plain s.index) ++ "] "
    ++ Text.alignRight 4 (← Numeral.plain s.pc) ++ ": " ++ (← s.instruction.text)
    ++ "  acc " ++ (← before.text) ++ " -> " ++ (← after.text)
    ++ "  next " ++ (← Numeral.plain s.next)

/-- The text of a step. -/
def Step.text (s : Step) : Except NumeralError String :=
  s.textWith (.number s.before) (.number s.after)

/-- The step that leads from one state to another. -/
def Step.between (index : Int) (s : State) (i : Instruction) (t : State) : Step :=
  { index, pc := s.pc, instruction := i, before := s.accumulator, after := t.accumulator,
    next := t.pc }

/-- A whole run: its steps in order, and how it ended. -/
structure Trace where
  steps : List Step
  outcome : Outcome
deriving DecidableEq, Repr

namespace Trace

/-- The addresses of the instructions that were carried out. -/
def visited (t : Trace) : List Int := t.steps.map (·.pc)

/-- The line that closes a verbose run of some steps. -/
def closingOf (steps : Nat) (outcome : OutcomeRecord) : Except NumeralError String := do
  return "  => " ++ (← outcome.text) ++ " (" ++ (← Numeral.plain steps) ++ " steps)"

/-- The line that closes a verbose run. -/
def closing (t : Trace) : Except NumeralError String :=
  closingOf t.steps.length t.outcome.record

end Trace

/-- What is counted of a run: its steps, and the instructions of the
program. -/
structure ExecutionStatistics where
  steps : Nat := 0
  programLength : Nat := 0
deriving DecidableEq, Repr

/-- What is recorded of a run: the run itself, what was counted, and the
accumulator at the start. -/
structure Recording where
  trace : Trace
  statistics : ExecutionStatistics
  initial : Int
deriving DecidableEq, Repr

/-- Where a loop has come to when the machine ends: the outcome, how many
turns moved, and the steps of those turns if they were kept. -/
structure LoopEnd where
  outcome : Outcome
  count : Nat
  kept : Option (Array Step)
deriving DecidableEq, Repr

/-- The run that a loop kept. -/
def LoopEnd.trace (r : LoopEnd) : Trace :=
  { steps := (r.kept.getD #[]).toList, outcome := r.outcome }

namespace Program

/-- What is kept when a turn has moved from one state to another. Its step
is made only if the run is verbose, which prints it, or steps are kept. -/
def note (verbose : Bool) (kept : Option (Array Step)) (count : Nat) (s : State)
    (i : Instruction) (t : State) : Transcript (Option (Array Step)) := do
  if kept.isSome || verbose then
    let step := Step.between count s i t
    if verbose then
      Transcript.printLine ("  " ++ (← Transcript.text step.text))
    return kept.map (·.push step)
  else
    return kept

/-- Take turns from a state on until the machine ends. Before that `count`
turns moved, and their steps are kept already if steps are kept. -/
def loopFrom (p : Program) (verbose : Bool) (kept : Option (Array Step)) (count : Nat)
    (s : State) : Transcript LoopEnd :=
  match _h : s.turn p with
  | .error e => Transcript.fail (.position e)
  | .ok (.ended outcome) => return { outcome, count, kept }
  | .ok (.moved i t) => do
    p.loopFrom verbose (← note verbose kept count s i t) (count + 1) t
termination_by s.unmarked
decreasing_by exact State.unmarked_lt_of_turn _h

/-- Run a program, and keep the steps behind those that are given. -/
def runLoop (p : Program) (settings : Settings) (kept : Option (Array Step)) :
    Transcript LoopEnd := do
  let r ← p.loopFrom settings.verbose kept 0 (State.initial p.size settings.initial)
  if settings.verbose then
    Transcript.printLine (← Transcript.text (Trace.closingOf r.count r.outcome.record))
  Transcript.log (.executed r.count r.outcome.record)
  return r

/-- Run a program and tell how it ends. -/
def execute (p : Program) (settings : Settings) : Transcript Outcome := do
  return (← p.runLoop settings none).outcome

/-- Run a program and record the run. -/
def executeTraced (p : Program) (settings : Settings) : Transcript Recording := do
  let r ← p.runLoop settings (some #[])
  return {
    trace := r.trace
    statistics := { steps := r.count, programLength := p.size }
    initial := settings.initial }

/-- Run a program and tell its steps and how it ends. -/
def trace (p : Program) (settings : Settings) : Transcript Trace := do
  return (← p.executeTraced settings).trace

/-- Take turns from a state on, and tell the steps and how the machine
ends. The first step has number `index`. -/
def runFrom (p : Program) (verbose : Bool) (index : Nat) (s : State) : Transcript Trace := do
  return (← p.loopFrom verbose (some #[]) index s).trace

end Program

end AccumulatorMachine
