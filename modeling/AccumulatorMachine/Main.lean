import AccumulatorMachine.CommandLine

/-!
# `AccumulatorMachine.Main`: the program

Everything that the program decides is in `CommandLine.respond`. Here
the file that is named is read, the stages of the run are timed, and
the response is handed to the output streams and the caller.
-/

set_option autoImplicit false

namespace AccumulatorMachine

/-- The system's number for a name that goes on behind a file. -/
def notDirectoryCode : UInt32 := 20

/-- The system's number for a name with too many bytes. -/
def nameTooLongCode : UInt32 := 36

/-- The bytes of a file. Errors that are not about what the name leads
to are passed on. -/
def readBytes (name : String) : IO (Except FileFault (List UInt8)) := do
  try
    return .ok (← IO.FS.readBinFile name).toList
  catch e =>
    match e with
    | .noFileOrDirectory _ _ _ => return .error .notFound
    | .inappropriateType _ code _ =>
      return .error (if code = notDirectoryCode then .notDirectory else .isDirectory)
    | .invalidArgument _ code _ =>
      if code = nameTooLongCode then return .error .nameTooLong else throw e
    | _ => throw e

/-- The bytes of the file that the command line names, if it names one
that can be opened at all. -/
def readNamed (words : List String) : IO (Except FileFault (List UInt8)) := do
  match CommandLine.Request.ofWords words with
  | .ok (.work { file := some file, .. }) =>
    if file = "" || file.toList.contains '\x00' then return .ok []
    readBytes (FileName.normal file)
  | _ => return .ok []

/-- The time in ticks. -/
def now : IO Int := do
  return ((← IO.monoNanosNow) * ticksPerSecond / 1000000000 : Nat)

/-- Computations that read the system's clock. They have the readings that
were taken as their state, also if they fail. -/
abbrev Timing : Type → Type := ExceptT Failure (StateT (Array Int) IO)

instance : MonadLift Transcript Timing where
  monadLift x := liftExcept x.ending

/-- The system's clock. -/
def systemTimer : Timer Timing where
  now := do
    let ticks ← (now : IO Int)
    modify (·.push ticks)
    return ticks
  keep := keptTicks

/-- Go through the stages of a run once, and keep the readings of the
clock in the order in which a run takes them. What a call that is not a
run does is not timed, so it does not matter which readings it has. -/
def timeStages (words : List String) (bytes : Except FileFault (List UInt8)) : IO Clock := do
  let some (a, source) := wanted? | return Clock.ofReadings []
  let (_, readings) ← (CommandLine.report systemTimer a source).run.run #[]
  return Clock.ofReadings readings.toList
where
  /-- The arguments and the listing, if there are any. -/
  wanted? : Option (CommandLine.Arguments × String) :=
    match CommandLine.Request.ofWords words with
    | .ok (.work a) =>
      ((CommandLine.obtain a fun _ => bytes).ending.toOption).map fun source => (a, source)
    | _ => none

end AccumulatorMachine

open AccumulatorMachine in
/-- Respond to the words of the command line. -/
def main (words : List String) : IO UInt32 := do
  let bytes ← readNamed words
  let clock ← timeStages words bytes
  let response := CommandLine.respond words (fun _ => bytes) clock
  (← IO.getStdout).putStr response.stdout
  (← IO.getStderr).putStr response.stderr
  match response.ending with
  | .ok status => return status.toUInt32
  | .error failure =>
    IO.eprintln failure.message
    return 1
