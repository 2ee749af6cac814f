import AccumulatorMachine.Document

/-!
# `AccumulatorMachine.Outcome`: how a run ends

A run halts, goes round forever, or jumps out of the program. The
first two tell the accumulator, the last the address.

Outcomes are handed on as records: a status, and what there is to tell
of the accumulator and the address. A record may come from elsewhere,
with any of the two missing or to spare; its text shows the one that
belongs to its status. The accumulator of a record can also be one
that was started without a number; it is shown as an empty list.
-/

set_option autoImplicit false

namespace AccumulatorMachine

/-- How a run ends. -/
inductive Outcome where
  | halted (accumulator : Int)
  | infiniteLoop (accumulator : Int)
  | jumpOutOfBounds (pc : Int)
deriving DecidableEq, Repr

/-- Whether the run halted. -/
def Outcome.succeeded : Outcome → Bool
  | .halted _ => true
  | _ => false

/-! ### Statuses -/

/-- The ways in which a run ends, without the integers. -/
inductive Status where
  | halted
  | jumpOutOfBounds
  | infiniteLoop
deriving DecidableEq, Repr

namespace Status

/-- The name of a status in records. -/
def name : Status → String
  | .halted => "HALTED"
  | .jumpOutOfBounds => "JUMP_OUT_OF_BOUNDS"
  | .infiniteLoop => "INFINITE_LOOP"

/-- The name of a status in texts. -/
def title : Status → String
  | .halted => "Halted"
  | .jumpOutOfBounds => "JumpOutOfBounds"
  | .infiniteLoop => "InfiniteLoop"

/-- Every status. -/
def all : List Status := [.halted, .jumpOutOfBounds, .infiniteLoop]

/-- The status of a name in records. -/
def ofName? (text : String) : Option Status := all.find? fun s => s.name = text

end Status

/-! ### Records -/

/-- What an accumulator holds: a number, or nothing if it was started
without one. -/
inductive Register where
  | number (value : Int)
  | empty
deriving DecidableEq, Repr

namespace Register

/-- The text of an accumulator without a number. -/
def emptyText : String := "[]"

/-- The text of an accumulator. -/
def text : Register → Except NumeralError String
  | .number n => Numeral.plain n
  | .empty => return emptyText

/-- The document of an accumulator. -/
def document : Register → Document
  | .number n => .number n
  | .empty => .list []

end Register

/-- An outcome as it is handed on. -/
structure OutcomeRecord where
  status : Status
  accumulator : Option Register := none
  pc : Option Int := none
deriving DecidableEq, Repr

/-- The text of something that may be missing. -/
def optionalText {α : Type} (text : α → Except NumeralError String) :
    Option α → Except NumeralError String
  | some value => text value
  | none => return "None"

namespace OutcomeRecord

/-- Whether the record tells of a halt. -/
def succeeded (r : OutcomeRecord) : Bool := r.status = .halted

/-- The text of what belongs to the status: the address of a jump out
of the program, and the accumulator otherwise. -/
def detail (r : OutcomeRecord) : Except NumeralError String :=
  match r.status with
  | .jumpOutOfBounds => optionalText Numeral.plain r.pc
  | _ => optionalText Register.text r.accumulator

/-- The text of a record. -/
def text (r : OutcomeRecord) : Except NumeralError String := do
  return r.status.title ++ "(" ++ (← r.detail) ++ ")"

/-- The fields of a record: its status, and what there is of the
accumulator and the address. -/
def fields (r : OutcomeRecord) : List (String × Document) :=
  ("status", .label r.status.name) ::
    (Document.optional "accumulator" Register.document r.accumulator
      ++ Document.optional "pc" Document.number r.pc)

/-- The record of the same ending with an accumulator that was started
without a number. -/
def emptied (r : OutcomeRecord) : OutcomeRecord :=
  { r with accumulator := r.accumulator.map fun _ => .empty }

/-- The document of a record. -/
def document (r : OutcomeRecord) : Document := .record r.fields

end OutcomeRecord

namespace Outcome

/-- The record of an outcome. -/
def record : Outcome → OutcomeRecord
  | .halted a => { status := .halted, accumulator := some (.number a) }
  | .infiniteLoop a => { status := .infiniteLoop, accumulator := some (.number a) }
  | .jumpOutOfBounds pc => { status := .jumpOutOfBounds, pc := some pc }

/-- The text of an outcome. -/
def text (o : Outcome) : Except NumeralError String := o.record.text

/-- An outcome and its record agree on success. -/
@[simp]
theorem succeeded_record (o : Outcome) : o.record.succeeded = o.succeeded := by
  cases o <;> rfl

end Outcome

end AccumulatorMachine
