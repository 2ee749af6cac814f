import AccumulatorMachine.Failure
import AccumulatorMachine.Outcome

/-!
# `AccumulatorMachine.Transcript`: what a computation writes, and how it ends

A computation may write while it goes: text for the reader, and
entries for a log. If it fails, what it wrote before stays written. A
`Transcript` is the entries in the order in which they were written,
and the ending: a value or a failure.

Transcripts form a monad. In a sequence the second computation writes
after the first, and is not begun if the first one failed.
-/

set_option autoImplicit false

namespace AccumulatorMachine

/-- What the log tells of. -/
inductive LogEntry where
  | reading (file : String)
  | parsed (instructions : Nat)
  | searching (instructions : Nat)
  | executed (steps : Nat) (outcome : OutcomeRecord)
  | finished (steps : Nat) (outcome : OutcomeRecord)
  | attempted (index : Int) (outcome : OutcomeRecord)
  | repaired (index : Int) (attempts : Nat) (accumulator : Int)
  | notRepaired (attempts : Nat)
deriving DecidableEq, Repr

namespace LogEntry

/-- The part of the program that an entry comes from. -/
def source : LogEntry → String
  | .reading _ => "bootcode.parser"
  | .parsed _ => "bootcode.parser"
  | .searching _ => "bootcode.api"
  | .executed _ _ => "bootcode.executor"
  | .finished _ _ => "bootcode.run"
  | .attempted _ _ => "bootcode.repair"
  | .repaired _ _ _ => "bootcode.repair"
  | .notRepaired _ => "bootcode.repair"

/-- The wording of an entry. -/
def message : LogEntry → Except NumeralError String
  | .reading file => return "Reading listing: " ++ file
  | .parsed n => do return "Parsed " ++ (← Numeral.plain n) ++ " instructions"
  | .searching n => do
    return "Searching repairs over " ++ (← Numeral.plain n) ++ " instructions"
  | .executed steps outcome => do
    return "Executed " ++ (← Numeral.plain steps) ++ " steps: " ++ (← outcome.text)
  | .finished steps outcome => do
    return "Execution finished after " ++ (← Numeral.plain steps) ++ " steps: "
      ++ (← outcome.text)
  | .attempted index outcome => do
    return "Mutation at " ++ (← Numeral.plain index) ++ ": " ++ (← outcome.text)
  | .repaired index attempts accumulator => do
    return "Repair found at index " ++ (← Numeral.plain index) ++ " after "
      ++ (← Numeral.plain attempts) ++ " attempts: accumulator "
      ++ (← Numeral.plain accumulator)
  | .notRepaired attempts => do
    return "No repair found after " ++ (← Numeral.plain attempts) ++ " attempts"

/-- The line of an entry in the log. An entry that cannot be worded
has none. -/
def line (e : LogEntry) : String :=
  match e.message with
  | .ok text => e.source ++ ": " ++ text ++ "\n"
  | .error _ => ""

end LogEntry

/-- Something that a computation writes. -/
inductive Entry where
  | printed (text : String)
  | complained (text : String)
  | logged (entry : LogEntry)
deriving DecidableEq, Repr

/-- What a computation writes, and how it ends. -/
structure Transcript (α : Type) where
  entries : List Entry
  ending : Except Failure α

namespace Transcript

/-! ### The monad -/

/-- Write nothing and end with a value. -/
protected def pure {α : Type} (a : α) : Transcript α := ⟨[], .ok a⟩

/-- One computation and then another that uses its value. -/
protected def bind {α β : Type} (x : Transcript α) (f : α → Transcript β) : Transcript β :=
  match x.ending with
  | .ok a =>
    let y := f a
    ⟨x.entries ++ y.entries, y.ending⟩
  | .error e => ⟨x.entries, .error e⟩

/-- One computation, with something made of its value. -/
protected def map {α β : Type} (f : α → β) (x : Transcript α) : Transcript β :=
  ⟨x.entries, x.ending.map f⟩

instance : Monad Transcript where
  map := Transcript.map
  pure := Transcript.pure
  bind := Transcript.bind

/-- Two transcripts with the same entries and the same ending are the
same. -/
theorem ext_iff {α : Type} {x y : Transcript α} :
    x = y ↔ x.entries = y.entries ∧ x.ending = y.ending := by
  obtain ⟨a, b⟩ := x
  obtain ⟨c, d⟩ := y
  simp

/-- A value is what it ends with. -/
@[simp]
theorem ending_pure {α : Type} (a : α) : (pure a : Transcript α).ending = .ok a := rfl

/-- After a value the second computation writes on. -/
theorem bind_of_ok {α β : Type} {x : Transcript α} {a : α} (h : x.ending = .ok a)
    (f : α → Transcript β) : x >>= f = ⟨x.entries ++ (f a).entries, (f a).ending⟩ := by
  show Transcript.bind x f = _
  simp [Transcript.bind, h]

/-- After a failure nothing more is done. -/
theorem bind_of_error {α β : Type} {x : Transcript α} {e : Failure} (h : x.ending = .error e)
    (f : α → Transcript β) : x >>= f = ⟨x.entries, .error e⟩ := by
  show Transcript.bind x f = _
  simp [Transcript.bind, h]

instance : LawfulMonad Transcript := LawfulMonad.mk' Transcript
  (fun x => by
    show Transcript.map id x = x
    obtain ⟨entries, ending⟩ := x
    cases ending <;> rfl)
  (fun a f => by
    show Transcript.bind (Transcript.pure a) f = f a
    simp [Transcript.bind, Transcript.pure])
  (fun x f g => by
    show Transcript.bind (Transcript.bind x f) g
      = Transcript.bind x fun a => Transcript.bind (f a) g
    obtain ⟨entries, ending⟩ := x
    cases ending with
    | error e => rfl
    | ok a =>
      simp only [Transcript.bind]
      cases (f a).ending <;> simp)
  (fun _ _ => rfl)
  (fun _ _ => rfl)
  (fun _ _ => rfl)
  (fun f x => by
    show Transcript.bind x (fun a => Transcript.pure (f a)) = Transcript.map f x
    obtain ⟨entries, ending⟩ := x
    cases ending <;> simp [Transcript.bind, Transcript.pure, Transcript.map, Except.map])

/-- What is made of the value writes nothing. -/
@[simp]
theorem entries_map {α β : Type} (f : α → β) (x : Transcript α) :
    (f <$> x).entries = x.entries := rfl

/-- It fails as the computation does, and has a value where that has one. -/
@[simp]
theorem ending_map {α β : Type} (f : α → β) (x : Transcript α) :
    (f <$> x).ending = x.ending.map f := rfl

/-! ### Writing and failing -/

/-- Print text. -/
def print (text : String) : Transcript Unit := ⟨[.printed text], .ok ()⟩

/-- Print a line. -/
def printLine (text : String) : Transcript Unit := print (text ++ "\n")

/-- Write text to where errors are told. -/
def complain (text : String) : Transcript Unit := ⟨[.complained text], .ok ()⟩

/-- Write an entry into the log. -/
def log (entry : LogEntry) : Transcript Unit := ⟨[.logged entry], .ok ()⟩

/-- Write nothing and end with a failure. -/
def fail {α : Type} (e : Failure) : Transcript α := ⟨[], .error e⟩

/-- Write nothing and end as an operation ends, its errors taken for
failures. -/
def ofExcept {ε α : Type} (failure : ε → Failure) : Except ε α → Transcript α
  | .ok a => pure a
  | .error e => fail (failure e)

/-- A text that is to be written. -/
def text (t : Except NumeralError String) : Transcript String := ofExcept .numeral t

/-! ### Reading a transcript -/

/-- The text that was printed. -/
def stdout {α : Type} (x : Transcript α) : String :=
  String.join (x.entries.map fun entry =>
    match entry with
    | .printed text => text
    | _ => "")

/-- The lines that were written for errors, and those of the log if it
is shown. -/
def stderr {α : Type} (showLog : Bool) (x : Transcript α) : String :=
  String.join (x.entries.map fun entry =>
    match entry with
    | .printed _ => ""
    | .complained text => text
    | .logged e => if showLog then e.line else "")

end Transcript

end AccumulatorMachine
