import AccumulatorMachine.Execution

/-!
# `AccumulatorMachine.Repair`: the one swap that lets a program halt

An attempt swaps one instruction, `jmp` for `nop` or the other way
round, and runs the changed program quietly from accumulator `0`. A
survey makes the attempt at every address where there is something to
swap. A search looks for the lowest address whose swap lets the
program halt; it goes through the addresses in order and stops at the
first success, or, if attempts may be under way at the same time,
makes them all and picks the lowest.

Each attempt has a program and a machine of its own. So how many of
them are under way at a time makes no difference to any of them, and
the attempts of a survey are listed by address.
-/

set_option autoImplicit false

namespace AccumulatorMachine

/-! ### Attempts -/

/-- One attempt: the place of the swap, the instruction there before
and after it, and how the changed program ends. -/
structure Attempt where
  index : Int
  replaced : Instruction
  replacement : Instruction
  outcome : Outcome
deriving DecidableEq, Repr

/-- An attempt as it is handed on, with the record of its outcome. -/
structure AttemptRecord where
  index : Int
  replaced : Instruction
  replacement : Instruction
  result : OutcomeRecord
deriving DecidableEq, Repr

/-- The text of an attempt. -/
def AttemptRecord.text (a : AttemptRecord) : Except NumeralError String := do
  return Text.alignRight 4 (← Numeral.plain a.index) ++ ": " ++ (← a.replaced.text)
    ++ " -> " ++ (← a.replacement.text) ++ "  " ++ (← a.result.text)

namespace Attempt

/-- The record of an attempt. -/
def record (a : Attempt) : AttemptRecord :=
  { index := a.index, replaced := a.replaced, replacement := a.replacement,
    result := a.outcome.record }

/-- The text of an attempt. -/
def text (a : Attempt) : Except NumeralError String := a.record.text

/-- Whether the changed program halts. -/
def succeeded (a : Attempt) : Bool := a.outcome.succeeded

/-- The place and the accumulator of an attempt that succeeded. -/
def success? (a : Attempt) : Option (Int × Int) :=
  match a.outcome with
  | .halted accumulator => some (a.index, accumulator)
  | _ => none

/-- The line that a verbose search prints. -/
def printIndented (a : Attempt) : Transcript Unit := do
  Transcript.printLine ("  " ++ (← Transcript.text a.text))

end Attempt

/-! ### Results of a search -/

/-- What a search comes to, with the number of attempts that it made. -/
inductive Repair where
  | repaired (index : Int) (accumulator : Int) (attempts : Nat)
  | notFound (attempts : Nat)
deriving DecidableEq, Repr

/-- The result of a search as it is handed on. -/
structure RepairRecord where
  found : Bool
  index : Option Int := none
  accumulator : Option Int := none
  attempts : Int := 0
deriving DecidableEq, Repr

namespace RepairRecord

/-- The text of a record. -/
def text (r : RepairRecord) : Except NumeralError String :=
  if r.found then do
    return "Repaired(index=" ++ (← optionalText Numeral.plain r.index) ++ ", accumulator="
      ++ (← optionalText Numeral.plain r.accumulator) ++ ")"
  else return "NoRepairFound"

/-- The document of a record. -/
def document (r : RepairRecord) : Document :=
  .record ([("found", .boolean r.found), ("attempts", .number r.attempts)] ++
    if r.found then
      [("index", Document.numberOrAbsent r.index),
       ("accumulator", Document.numberOrAbsent r.accumulator)]
    else [])

end RepairRecord

namespace Repair

/-- Whether a swap was found. -/
def found : Repair → Bool
  | .repaired _ _ _ => true
  | .notFound _ => false

/-- How many attempts were made. -/
def attempts : Repair → Nat
  | .repaired _ _ n => n
  | .notFound n => n

/-- The record of a result. -/
def record : Repair → RepairRecord
  | .repaired i a n => { found := true, index := some i, accumulator := some a, attempts := n }
  | .notFound n => { found := false, attempts := n }

/-- The text of a result. -/
def text (r : Repair) : Except NumeralError String := r.record.text

/-- What the log tells of a result. -/
def entry : Repair → LogEntry
  | .repaired i a n => .repaired i n a
  | .notFound n => .notRepaired n

end Repair

/-- The entry with the lowest place; of several, the first. -/
def lowest : List (Int × Int) → Option (Int × Int)
  | [] => none
  | x :: rest =>
    match lowest rest with
    | none => some x
    | some y => if y.1 < x.1 then some y else some x

/-- The lowest success among attempts. -/
def lowestSuccess (attempts : List Attempt) : Repair :=
  match lowest (attempts.filterMap Attempt.success?) with
  | some (index, accumulator) => .repaired index accumulator attempts.length
  | none => .notFound attempts.length

/-! ### Searching -/

namespace Program

/-- Swap the instruction at a place and run the changed program. The
place counts from the end if it is negative, in the program and in the
changed one alike. -/
def attempt (p : Program) (index : Int) (settings : Settings) : Transcript Attempt := do
  let changed ← Transcript.ofExcept .position (p.toggle index)
  let outcome ← changed.execute { settings with initial := 0, verbose := false }
  Transcript.log (.attempted index outcome.record)
  let replaced ← Transcript.ofExcept .position (p.get index)
  let replacement ← Transcript.ofExcept .position (changed.get index)
  return { index, replaced, replacement, outcome }

/-- Make the attempts at all candidates. A verbose survey prints them
when the last one is made.

The number of workers is not read. With workers, several attempts are
under way at a time and come to an end in any order, but each has a
program and a machine of its own, and the list of their results is in the
order of the candidates. `Proofs.Pool` has the workers and their
schedules: whatever the schedule is, the results are the ones of this
list (`schedule_irrelevant`). -/
def survey (p : Program) (settings : Settings) : Transcript (List Attempt) := do
  let attempts ← p.candidates.mapM fun (i : Nat) => p.attempt i settings
  if settings.verbose then
    attempts.forM Attempt.printIndented
  return attempts

/-- Make attempts in order until one succeeds; `made` of them were made
before. A verbose search prints each attempt when it is made. -/
def searchFrom (p : Program) (settings : Settings) (made : Nat) :
    List Nat → Transcript Repair
  | [] => return .notFound made
  | i :: rest => do
    let a ← p.attempt i settings
    if settings.verbose then
      a.printIndented
    match a.success? with
    | some (index, accumulator) => return .repaired index accumulator (made + 1)
    | none => p.searchFrom settings (made + 1) rest

/-- Find the lowest address whose swap lets the program halt. -/
def repair (p : Program) (settings : Settings) : Transcript Repair := do
  let result ←
    if 0 < settings.workers then lowestSuccess <$> p.survey settings
    else p.searchFrom settings 0 p.candidates
  Transcript.log result.entry
  return result

end Program

end AccumulatorMachine
