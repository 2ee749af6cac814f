import AccumulatorMachine.Numeral

/-!
# `AccumulatorMachine.Document`: results as JSON documents

Results are handed on as documents: integers, names, truth values,
lists, and records whose fields keep their order. `Document.render`
writes one with two spaces of indentation for every level. Names are
written as they are, since none of them has a character that would
have to be escaped.

A document that holds an integer with too many digits cannot be
written at all.
-/

set_option autoImplicit false

namespace AccumulatorMachine

/-- A result to be handed on. -/
inductive Document where
  | absent
  | boolean (value : Bool)
  | number (value : Int)
  | label (name : String)
  | list (entries : List Document)
  | record (fields : List (String × Document))

namespace Document

/-- A name between double quotes. -/
def quotedName (name : String) : String := "\"" ++ name ++ "\""

/-- The end of a line, and the indentation of the next one. -/
def newline (depth : Nat) : String := "\n" ++ String.ofList (List.replicate (2 * depth) ' ')

/-- Put parts between brackets, one a line. If there are none, the
brackets stand together. -/
def enclose (opening closing : String) (depth : Nat) (parts : List String) : String :=
  if parts.isEmpty then opening ++ closing
  else opening ++ newline (depth + 1) ++ ("," ++ newline (depth + 1)).intercalate parts
    ++ newline depth ++ closing

mutual

/-- The text of a document at a depth. -/
def renderAt (depth : Nat) : Document → Except NumeralError String
  | .absent => return "null"
  | .boolean value => return if value then "true" else "false"
  | .number value => Numeral.plain value
  | .label name => return quotedName name
  | .list entries => do return enclose "[" "]" depth (← renderEntries (depth + 1) entries)
  | .record fields => do return enclose "\x7b" "\x7d" depth (← renderFields (depth + 1) fields)

/-- The texts of the entries of a list. -/
def renderEntries (depth : Nat) : List Document → Except NumeralError (List String)
  | [] => return []
  | entry :: rest => do
    let first ← renderAt depth entry
    return first :: (← renderEntries depth rest)

/-- The texts of the fields of a record, each with its name. -/
def renderFields (depth : Nat) : List (String × Document) → Except NumeralError (List String)
  | [] => return []
  | (name, value) :: rest => do
    let first ← renderAt depth value
    return (quotedName name ++ ": " ++ first) :: (← renderFields depth rest)

end

/-- The text of a document. -/
def render (d : Document) : Except NumeralError String := renderAt 0 d

/-- A field that is there only if its value is. -/
def optional {α : Type} (name : String) (document : α → Document) (value : Option α) :
    List (String × Document) :=
  match value with
  | some a => [(name, document a)]
  | none => []

/-- An integer, or the sign that there is none. -/
def numberOrAbsent (value : Option Int) : Document :=
  match value with
  | some n => .number n
  | none => .absent

end Document

end AccumulatorMachine
