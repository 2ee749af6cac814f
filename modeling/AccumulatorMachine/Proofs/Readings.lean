import AccumulatorMachine.EmptyStart
import AccumulatorMachine.Proofs.Recording

/-!
# `AccumulatorMachine.Proofs.Readings`: which readings a run takes

The stages of a run read the clock as they go. The next reading is always
the one after those that were taken, so a stage has two readings of its
own, and no other stage lies between them (`Pipeline.run_stage`). This
module gives the readings of a run their numbers:

* `timed` are the times by the numbers of the readings, and `readings` is
  how many were taken: six, or eight if there was a search;
* `run_runStages` says that the stages come to what they come to by these
  numbers;
* `run_eq` and `runEmpty_eq` are the runs without any trace of the
  readings, which is what the other modules work with.
-/

set_option autoImplicit false

namespace AccumulatorMachine

/-- Taking a reading moves on to the next one. -/
theorem Clocked.run_read (clock : Clock) (k : Nat) :
    (Clocked.read clock).run k = pure (clock.reading k, k + 1) := by
  simp [Clocked.read]

namespace Pipeline

/-! ### Readings by their numbers -/

/-- The times of a run whose search, if any, took the readings `5` and
`6`. The reading before the end of the run is the one after the last
stage, so the end is reading `7` with a search and `5` without one. -/
def timed (clock : Clock) (searched : Bool) (s : Statistics) : Statistics :=
  { s with
    parseTicks := clock.elapsed 1 2
    executionTicks := clock.elapsed 3 4
    repairTicks := if searched then clock.elapsed 5 6 else 0
    totalTicks := if searched then clock.elapsed 0 7 else clock.elapsed 0 5 }

/-- The number of readings of a run whose search, if any, came to a
result. -/
def readings (repair : Option Repair) : Nat := if repair.isSome then 8 else 6

/-- Search for a repair, under its heading if the search is verbose. -/
def search (p : Program) (settings : Settings) : Transcript Repair := do
  if settings.verbose then
    emptyLine
    heading "Repair"
  p.repair settings

/-- What a run does when the program has ended after some steps, by the
numbers of its readings. -/
def finish (source : String) (settings : Settings) (wanted : Bool) (clock : Clock)
    (program : Program) (steps : Nat) (outcome : OutcomeRecord) :
    Transcript (Option Repair × Statistics) := do
  Transcript.log (.finished steps outcome)
  let repair ←
    if wanted && !outcome.succeeded then some <$> search program settings
    else pure none
  let statistics := timed clock repair.isSome {
    sourceBytes := source.utf8ByteSize
    sourceLines := countLines source
    instructionCount := program.size
    executionSteps := steps
    repairAttempts := (repair.map Repair.attempts).getD 0 }
  if settings.verbose then
    conclude statistics
  return (repair, statistics)

/-! ### Stages by the numbers of their readings -/

/-- A stage takes the next two readings. -/
theorem run_stage {α : Type} (clock : Clock) (x : Unit → Transcript α) (k : Nat) :
    (stage clock.timer x).run k = (fun a => ((a, clock.elapsed k (k + 1)), k + 2)) <$> x () := by
  simp [stage, Clock.timer, Clocked.run_read, Clock.elapsed]

/-- So does a search. -/
theorem run_searchStage (p : Program) (settings : Settings) (clock : Clock) (k : Nat) :
    (searchStage clock.timer settings p).run k
      = (fun found => ((some found, clock.elapsed k (k + 1)), k + 2)) <$> search p settings := by
  unfold searchStage search
  cases settings.verbose with
  | true => simp [run_stage]
  | false => simp [run_stage]

/-- After the first five readings, the search takes the next two, and the
end of the run takes the one after them. -/
theorem run_finishStages (source : String) (settings : Settings) (wanted : Bool) (clock : Clock)
    (p : Program) (steps : Nat) (outcome : OutcomeRecord) :
    (finishStages clock.timer settings wanted p steps outcome (clock.reading 0) {
        sourceBytes := source.utf8ByteSize
        sourceLines := countLines source
        parseTicks := clock.elapsed 1 2
        instructionCount := p.size
        executionTicks := clock.elapsed 3 4
        executionSteps := steps }).run 5
      = (fun r => (r, readings r.1)) <$> finish source settings wanted clock p steps outcome := by
  have hnow : clock.timer.now = Clocked.read clock := rfl
  unfold finishStages finish
  -- Only the search decides how many readings come before the last one; a table is
  -- printed after all of them.
  cases wanted && !outcome.succeeded with
  | true =>
    cases settings.verbose with
    | true =>
      simp [run_searchStage, hnow, Clocked.run_read]
      rfl
    | false =>
      simp [run_searchStage, hnow, Clocked.run_read]
      rfl
  | false =>
    cases settings.verbose with
    | true =>
      simp [hnow, Clocked.run_read]
      rfl
    | false =>
      simp [hnow, Clocked.run_read]
      rfl

variable {α : Type}

/-- Taking the readings on the way comes to what it comes to by the numbers
of the readings, however the program is run. -/
theorem run_runStages (source : String) (settings : Settings) (wanted : Bool) (clock : Clock)
    (execute : Program → Transcript α) (told : α → Nat × OutcomeRecord) :
    (runStages clock.timer source settings wanted execute told).run 0
      = (do
        let program ← Program.load source
        if settings.verbose then
          announce program
        let a ← execute program
        let (repair, statistics) ←
          finish source settings wanted clock program (told a).1 (told a).2
        return ((program, a, repair, statistics), readings repair)) := by
  have hnow : clock.timer.now = Clocked.read clock := rfl
  unfold runStages
  -- What is printed between two stages comes between their readings and takes none.
  cases settings.verbose with
  | true =>
    simp only [StateT.run_bind, hnow, Clocked.run_read, run_stage, pure_bind, bind_map_left,
      bind_assoc, if_true, StateT.run_monadLift]
    refine bind_congr fun p => bind_congr fun _ => bind_congr fun a => ?_
    rw [run_finishStages]
    simp
  | false =>
    simp only [StateT.run_bind, hnow, Clocked.run_read, run_stage, pure_bind, bind_map_left,
      Bool.false_eq_true, if_false]
    refine bind_congr fun p => bind_congr fun a => ?_
    rw [run_finishStages]
    simp

/-! ### Whole runs -/

/-- A run is the reading of the listing, the run of the program, and what
comes after, by the numbers of the readings. -/
theorem run_eq (source : String) (settings : Settings) (wanted : Bool) (clock : Clock) :
    run source settings wanted clock = (do
      let program ← Program.load source
      if settings.verbose then
        announce program
      let t ← program.trace settings
      let (repair, statistics) ←
        finish source settings wanted clock program t.steps.length t.outcome.record
      return { program, outcome := t.outcome, repair, statistics }) := by
  simp only [run, runClocked, report, StateT.run_bind, run_runStages, Program.executeTraced_eq]
  cases settings.verbose with
  | true => simp [Trace.recorded]
  | false => simp [Trace.recorded]

/-- It takes as many readings as `readings` says. -/
theorem run_runClocked (source : String) (settings : Settings) (wanted : Bool) (clock : Clock) :
    (runClocked source settings wanted clock).run 0
      = (fun r => (r, readings r.repair)) <$> run source settings wanted clock := by
  simp only [run, runClocked, report, StateT.run_bind, run_runStages]
  cases settings.verbose with
  | true => simp
  | false => simp

/-- A run without a number in the accumulator, by the numbers of the
readings. -/
theorem runEmpty_eq (source : String) (settings : Settings) (wanted : Bool) (clock : Clock) :
    runEmpty source settings wanted clock = (do
      let program ← Program.load source
      if settings.verbose then
        announce program
      let (steps, outcome) ← program.executeEmpty settings.verbose
      let (repair, _) ← finish source settings wanted clock program steps outcome
      return {
        instructions := program.size
        result := outcome
        repair := repair.map Repair.record }) := by
  simp only [runEmpty, reportEmpty, StateT.run_bind, run_runStages]
  cases settings.verbose with
  | true => simp
  | false => simp

end Pipeline

end AccumulatorMachine
