import AccumulatorMachine.FileTree
import AccumulatorMachine.Repair
import AccumulatorMachine.Statistics

/-!
# `AccumulatorMachine.Pipeline`: from a listing to a report

`Program.load` reads a listing. `Program.rewriteListing` writes the
program that was read as a listing again, `Program.executeListing` runs
it, and `Program.repairListing` searches for a repair of it.
`Pipeline.run` does the last two: it reads a listing, runs the program,
and searches for a repair if the program does not halt and a repair is
wanted. A clock is read before and after every stage and at both ends of
the whole; a stage that is left out takes no reading.

The stages are told once, for every kind of computation that can carry
out theirs and has a `Timer` (`runStages`). In `Clocked` computations the
readings of the clock are given from the start.

A verbose run prints the program first, then the run, then the search,
and the statistics at the end, under a heading each.
-/

set_option autoImplicit false

namespace AccumulatorMachine

/-! ### Reading a listing -/

/-- Read a listing. -/
def Program.load (source : String) : Transcript Program := do
  let p ← Transcript.ofExcept ListingError.failure (Program.read source)
  Transcript.log (.parsed p.size)
  return p

/-- A listing that is read leaves a word about its length in the log. -/
theorem Program.load_of_read {source : String} {p : Program} (h : Program.read source = .ok p) :
    Program.load source = ⟨[.logged (.parsed p.size)], .ok p⟩ := by
  rw [Program.load, h]
  rfl

/-- A listing that is refused leaves nothing. -/
theorem Program.load_of_read_error {source : String} {e : ListingError}
    (h : Program.read source = .error e) : Program.load source = Transcript.fail e.failure := by
  rw [Program.load, h]
  rfl

/-- Read a listing and write the listing of its program. -/
def Program.rewriteListing (source : String) : Transcript String := do
  let p ← Program.load source
  Transcript.text p.listing

/-- Read a listing and run its program from an accumulator. -/
def Program.executeListing (source : String) (initial : Int) : Transcript Outcome := do
  let p ← Program.load source
  p.execute { initial }

/-- Read a listing and search for a repair of its program. -/
def Program.repairListing (source : String) (workers : Int) : Transcript Repair := do
  let p ← Program.load source
  Transcript.log (.searching p.size)
  p.repair { workers }

/-- The text of a file, by the bytes that a name leads to. Line ends
that have a carriage return become line feeds. -/
def textOfFile (bytesOf : String → Except FileFault (List UInt8)) (file : String) :
    Transcript String := do
  let name := FileName.normal file
  Transcript.log (.reading name)
  if name.toList.contains '\x00' then
    Transcript.fail .nulInFileName
  else
    let bytes ← Transcript.ofExcept (fun fault => .file ⟨fault, name⟩) (bytesOf name)
    let text ← Transcript.ofExcept .decoding (Text.decodeUtf8 bytes)
    return String.ofList (Text.unifyLineEnds text)

/-! ### Taking the time -/

/-- A clock for computations: how its next reading is taken, and what is
kept of the time between two readings. -/
structure Timer (m : Type → Type) where
  now : m Int
  keep : Int → Int

/-- Computations that read a clock as they go. The state is the number of
readings that were taken. -/
abbrev Clocked : Type → Type := StateT Nat Transcript

/-- Take the next reading. -/
def Clocked.read (clock : Clock) : Clocked Int := do
  let k ← get
  set (k + 1)
  return clock.reading k

/-- A clock whose readings are taken one after the other. -/
def Clock.timer (clock : Clock) : Timer Clocked where
  now := Clocked.read clock
  keep := clock.keep

/-! ### The pipeline -/

/-- Everything that a run tells of a listing. -/
structure Report where
  program : Program
  outcome : Outcome
  repair : Option Repair
  statistics : Statistics
deriving DecidableEq, Repr

/-- What is handed on of a report: the number of instructions, how the
run ended, and what the search came to if there was one. -/
structure ReportRecord where
  instructions : Nat
  result : OutcomeRecord
  repair : Option RepairRecord
deriving DecidableEq, Repr

/-- The document of a report. -/
def ReportRecord.document (r : ReportRecord) : Document :=
  .record ([("instructions", .number r.instructions), ("result", r.result.document)] ++
    match r.repair with
    | some repair => [("repair", repair.document)]
    | none => [])

/-- The record of a report. -/
def Report.record (r : Report) : ReportRecord :=
  { instructions := r.program.size, result := r.outcome.record,
    repair := r.repair.map Repair.record }

namespace Pipeline

/-- The lines of a text that a line feed ends, and one more if there is
text after the last line feed. -/
def countLines (source : String) : Nat :=
  source.toList.count '\n'
    + (if source.toList.getLast?.any fun c => c ≠ '\n' then 1 else 0)

/-- A heading of the verbose output. -/
def heading (title : String) : Transcript Unit :=
  Transcript.printLine ("═══ " ++ title ++ " ═══")

/-- An empty line. -/
def emptyLine : Transcript Unit := Transcript.printLine ""

/-- Print the program under its heading, and the heading of the run. -/
def announce (p : Program) : Transcript Unit := do
  heading "Program"
  Transcript.printLine (← Transcript.text p.numbered)
  emptyLine
  heading "Execution"

/-- Print the statistics after an empty line. -/
def conclude (s : Statistics) : Transcript Unit := do
  emptyLine
  Transcript.printLine (← Transcript.text s.report)

section Stages

variable {m : Type → Type} [Monad m] [MonadLiftT Transcript m]

/-- A stage, and its time from a reading before it to one after it. The
stage is not begun before the first reading. -/
def stage {α : Type} (timer : Timer m) (x : Unit → Transcript α) : m (α × Int) := do
  let before ← timer.now
  let a ← x ()
  let after ← timer.now
  return (a, timer.keep (after - before))

/-- Search for a repair and take the time. A verbose search has a heading,
which comes before the first reading. -/
def searchStage (timer : Timer m) (settings : Settings) (p : Program) :
    m (Option Repair × Int) := do
  if settings.verbose then
    emptyLine
    heading "Repair"
  let (found, ticks) ← stage timer fun _ => p.repair settings
  return (some found, ticks)

/-- What a run does when the program has ended after some steps: it
searches for a repair if one is wanted and the program did not halt, and
gathers the statistics. The reading at the start of the run was `start`,
and `gathered` is what the statistics tell so far. -/
def finishStages (timer : Timer m) (settings : Settings) (wanted : Bool) (program : Program)
    (steps : Nat) (outcome : OutcomeRecord) (start : Int) (gathered : Statistics) :
    m (Option Repair × Statistics) := do
  Transcript.log (.finished steps outcome)
  let (repair, repairTicks) ←
    if wanted && !outcome.succeeded then searchStage timer settings program
    else pure (none, 0)
  let stop ← timer.now
  let statistics := { gathered with
    repairTicks
    repairAttempts := (repair.map Repair.attempts).getD 0
    totalTicks := timer.keep (stop - start) }
  if settings.verbose then
    conclude statistics
  return (repair, statistics)

/-- Read a listing, run its program, and search for a repair if the program
does not halt and `wanted` says so. The program is run by `execute`, and
`told` is the number of steps and the outcome of such a run. -/
def runStages {α : Type} (timer : Timer m) (source : String) (settings : Settings)
    (wanted : Bool) (execute : Program → Transcript α) (told : α → Nat × OutcomeRecord) :
    m (Program × α × Option Repair × Statistics) := do
  let start ← timer.now
  let (program, parseTicks) ← stage timer fun _ => Program.load source
  if settings.verbose then
    announce program
  let (a, executionTicks) ← stage timer fun _ => execute program
  let (steps, outcome) := told a
  let (repair, statistics) ←
    finishStages timer settings wanted program steps outcome start {
      sourceBytes := source.utf8ByteSize
      sourceLines := countLines source
      parseTicks
      instructionCount := program.size
      executionTicks
      executionSteps := steps }
  return (program, a, repair, statistics)

/-- The stages of a run that is recorded, and its report. -/
def report (timer : Timer m) (source : String) (settings : Settings) (wanted : Bool) :
    m Report := do
  let (program, recording, repair, statistics) ←
    runStages timer source settings wanted (·.executeTraced settings)
      fun recording => (recording.statistics.steps, recording.trace.outcome.record)
  return { program, outcome := recording.trace.outcome, repair, statistics }

end Stages

/-- A run by a clock, as it takes the readings. -/
def runClocked (source : String) (settings : Settings) (wanted : Bool) (clock : Clock) :
    Clocked Report :=
  report clock.timer source settings wanted

/-- Read a listing, run its program, and search for a repair if the
program does not halt and `wanted` says so. -/
def run (source : String) (settings : Settings) (wanted : Bool) (clock : Clock) :
    Transcript Report :=
  Prod.fst <$> (runClocked source settings wanted clock).run 0

end Pipeline

end AccumulatorMachine
