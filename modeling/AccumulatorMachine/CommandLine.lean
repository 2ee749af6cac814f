import AccumulatorMachine.CommandLine.Request
import AccumulatorMachine.CommandLine.Usage
import AccumulatorMachine.EmptyStart

/-!
# `AccumulatorMachine.CommandLine`: the program as it is called

The words of the command line ask for one of four things on one
listing: its canonical form, its opcode counts, a survey of all swaps,
or a run with a repair if one is needed. Without a file the listing is
a demonstration. Results are printed as text or as JSON.

The exit status is `2` for words that cannot be understood, a listing
that cannot be read, or a file that cannot be opened; `1` for a
program that neither halts nor can be repaired; and `0` otherwise.
Other failures end the program without a status.

`respond` tells all that a caller sees: the status or failure, and the
two output streams. The log is shown on the second one if the run is
verbose.
-/

set_option autoImplicit false

namespace AccumulatorMachine.CommandLine

/-- An exit status. -/
abbrev Status : Type := Nat

/-- The listing that is run if no file is named. -/
def demo : String :=
  "nop +0\nacc +1\njmp +4\nacc +3\njmp -3\nacc -99\nacc +1\njmp -4\nacc +6\n"

/-! ### The four kinds of work -/

/-- The listing to work on. -/
def obtain (a : Arguments) (bytesOf : String → Except FileFault (List UInt8)) :
    Transcript String :=
  match a.file with
  | none => offerDemo
  | some file => if file = "" then offerDemo else textOfFile bytesOf file
where
  /-- The demonstration, with a word about it unless JSON is wanted. -/
  offerDemo : Transcript String := do
    if !a.json then
      Transcript.printLine "No file provided. Using built-in demo:\n"
      Transcript.printLine demo
    return demo

/-- Print a document as JSON. -/
def printDocument (d : Document) : Transcript Unit := do
  Transcript.printLine (← Transcript.text d.render)

/-- The document of an instruction. -/
def instructionDocument (i : Instruction) : Document :=
  .record [("opcode", .label i.opcode.name), ("argument", .number i.argument)]

/-- Print the canonical form of a listing. -/
def dump (a : Arguments) (source : String) : Transcript Status := do
  let p ← Program.load source
  if a.json then
    printDocument (.list (p.toList.map instructionDocument))
  else
    Transcript.print (← Transcript.text p.listing)
  return 0

/-- Print how often each opcode occurs. -/
def count (a : Arguments) (source : String) : Transcript Status := do
  let p ← Program.load source
  if a.json then
    printDocument (.record (p.opcodeCounts.map fun entry => (entry.1.name, .number entry.2)))
  else
    p.opcodeCounts.forM fun entry => do
      let total ← Transcript.text (Numeral.plain entry.2)
      Transcript.printLine ("  " ++ Text.alignLeft 4 entry.1.name ++ " " ++ total)
  return 0

/-- How programs are to be run. -/
def settings (a : Arguments) : Settings :=
  { initial := a.initial.getD 0, verbose := a.verbose && !a.json, workers := a.workers.getD 0 }

/-- The document of an attempt. -/
def attemptDocument (t : Attempt) : Document :=
  .record (("index", .number t.index) :: t.outcome.record.fields)

/-- Print the outcome of every swap. A verbose survey has printed them
by itself. -/
def survey (a : Arguments) (source : String) : Transcript Status := do
  let p ← Program.load source
  let attempts ← p.survey (settings a)
  if a.json then
    printDocument (.list (attempts.map attemptDocument))
  else if !(settings a).verbose then
    attempts.forM Attempt.printIndented
  return if attempts.any Attempt.succeeded then 0 else 1

/-- The status of a run: whether the program halts, or is repaired so
that it does. -/
def statusOf (r : ReportRecord) : Status :=
  if r.result.succeeded || (r.repair.map RepairRecord.found).getD false then 0 else 1

/-- Print how a run ended and what was repaired. -/
def tell (a : Arguments) (r : ReportRecord) : Transcript Status := do
  if a.json then
    printDocument r.document
  else
    Transcript.printLine ("program exec: " ++ (← Transcript.text r.result.text))
    match r.repair with
    | some repair => Transcript.printLine ("repair: " ++ (← Transcript.text repair.text))
    | none => pure ()
  return statusOf r

/-- The report on a listing, of a run from a number or of one without. -/
def report {m : Type → Type} [Monad m] [MonadLiftT Transcript m] (timer : Timer m)
    (a : Arguments) (source : String) : m ReportRecord :=
  if a.initial.isSome then
    Report.record <$> Pipeline.report timer source (settings a) (!a.noRepair)
  else
    Pipeline.reportEmpty timer source (settings a) (!a.noRepair)

/-- Run a listing and tell its report. -/
def run (a : Arguments) (source : String) (clock : Clock) : Transcript Status := do
  let (r, _) ← (report clock.timer a source).run 0
  tell a r

/-- The work that is asked for: the first kind that the flags name, and
a run if they name none. -/
def work (a : Arguments) (bytesOf : String → Except FileFault (List UInt8)) (clock : Clock) :
    Transcript Status := do
  let source ← obtain a bytesOf
  if a.dumpOnly then dump a source
  else if a.statsOnly then count a source
  else if a.survey then survey a source
  else run a source clock

/-! ### Complaints -/

/-- Tell an error and end with status `2`. -/
def refuse (message : String) : Transcript Status := do
  Transcript.complain ("error: " ++ message ++ "\n")
  return 2

/-- Take a refused line and a file that cannot be opened for errors of
the user, and leave other failures as they are. -/
def tellErrors (x : Transcript Status) : Transcript Status :=
  match x.ending with
  | .error (.line e) => ⟨x.entries ++ (refuse e.message).entries, (refuse e.message).ending⟩
  | .error (.file e) => ⟨x.entries ++ (refuse e.message).entries, (refuse e.message).ending⟩
  | _ => x

/-- Do what is asked for. -/
def serve (a : Arguments) (bytesOf : String → Except FileFault (List UInt8)) (clock : Clock) :
    Transcript Status :=
  match a.workers with
  | none => Transcript.fail .emptyWorkers
  | some workers =>
    if workers < 0 then refuse "--workers must be >= 0"
    else tellErrors (work a bytesOf clock)

/-! ### What a caller sees -/

/-- The end of a call and what it wrote. -/
structure Response where
  ending : Except Failure Status
  stdout : String
  stderr : String
deriving Repr

/-- The response to the words of a command line. -/
def respond (words : List String) (bytesOf : String → Except FileFault (List UInt8))
    (clock : Clock) : Response :=
  match Request.ofWords words with
  | .error e =>
    { ending := .ok 2, stdout := "",
      stderr := usage ++ programName ++ ": error: " ++ e.message ++ "\n" }
  | .ok .help => { ending := .ok 0, stdout := help, stderr := "" }
  | .ok (.work a) =>
    let x := serve a bytesOf clock
    { ending := x.ending, stdout := x.stdout, stderr := x.stderr a.verbose }

end AccumulatorMachine.CommandLine
