import AccumulatorMachine.Text.Digit

/-!
# `AccumulatorMachine.Numeral`: integers in decimal, up to a number of digits

Integers are unbounded, but a numeral has at most `digitLimit` digits:
a longer one is refused when it is read, and an integer that needs a
longer one is refused when it is written. The sign does not count;
leading zeros do.

- `plain` and `signed` write an integer, without or with the sign of
  a number that is not negative;
- `scan` reads a sign and ASCII digits, `scanSpread` a sign and digits
  of any class with single underscores between them, and
  `Scanned.value` makes the integer of what was read.
-/

set_option autoImplicit false

namespace AccumulatorMachine

/-- Why a numeral is refused: it was read and has too many digits, or
the integer to be written needs too many. -/
inductive NumeralError where
  | tooManyDigits (count : Nat)
  | tooLarge
deriving DecidableEq, Repr

namespace Numeral

open Text

/-- The most digits that a numeral may have. -/
def digitLimit : Nat := 4300

/-! ### Writing -/

/-- Whether the integer can be written within the limit. -/
def fits (n : Int) : Bool := n.natAbs < Nat.pow 10 digitLimit

/-- The digits of a number, the first one not zero unless it is the
only one. -/
def digits (n : Nat) : String := String.ofList (Nat.toDigits 10 n)

/-- An integer with a minus sign if it is negative, however long. -/
def unlimited (n : Int) : String :=
  if n < 0 then "-" ++ digits n.natAbs else digits n.natAbs

/-- An integer with a minus sign if it is negative. -/
def plain (n : Int) : Except NumeralError String :=
  if fits n then .ok (unlimited n) else .error .tooLarge

/-- An integer with its sign, which is a plus sign for zero. -/
def signed (n : Int) : Except NumeralError String :=
  if fits n then
    .ok (if n < 0 then "-" ++ digits n.natAbs else "+" ++ digits n.natAbs)
  else .error .tooLarge

/-! ### Reading -/

/-- A numeral that was read: whether it has a minus sign, and the
values of its digits. -/
structure Scanned where
  negative : Bool
  digits : List Nat
deriving DecidableEq, Repr

/-- The value of a row of digits. -/
def valueOf (digits : List Nat) : Nat := digits.foldl (fun value d => 10 * value + d) 0

/-- The integer of a numeral that has no more digits than the limit. -/
def Scanned.value (s : Scanned) : Except NumeralError Int :=
  if s.digits.length ≤ digitLimit then
    .ok (if s.negative then -(valueOf s.digits : Int) else valueOf s.digits)
  else .error (.tooManyDigits s.digits.length)

/-- Take off an optional sign and tell whether it was a minus sign. -/
def takeSign : List Char → Bool × List Char
  | '-' :: rest => (true, rest)
  | '+' :: rest => (false, rest)
  | rest => (false, rest)

/-- One digit or more, and nothing else. -/
def scanDigits (digit? : Char → Option Nat) : List Char → Option (List Nat)
  | [] => none
  | [c] => (digit? c).map ([·])
  | c :: rest => do return (← digit? c) :: (← scanDigits digit? rest)

/-- One digit or more, with at most one underscore between two of
them, and nothing else. -/
def scanGrouped (digit? : Char → Option Nat) : List Char → Option (List Nat)
  | [] => none
  | [c] => (digit? c).map ([·])
  | c :: '_' :: rest => do return (← digit? c) :: (← scanGrouped digit? rest)
  | c :: rest => do return (← digit? c) :: (← scanGrouped digit? rest)

/-- An optional sign and ASCII digits. -/
def scan (text : List Char) : Option Scanned :=
  let (negative, rest) := takeSign text
  (scanDigits asciiDigit? rest).map fun digits => ⟨negative, digits⟩

/-- An optional sign and grouped digits of a class. -/
def scanSpread (digit? : Char → Option Nat) (text : List Char) : Option Scanned :=
  let (negative, rest) := takeSign text
  (scanGrouped digit? rest).map fun digits => ⟨negative, digits⟩

/-! ### What the two directions have in common -/

/-- The signed form is refused for the same integers. -/
theorem signed_eq_error_iff {n : Int} : signed n = .error .tooLarge ↔ fits n = false := by
  unfold signed
  by_cases h : fits n = true <;> simp [h]

end Numeral

/-- The wording of a refusal. -/
def NumeralError.message : NumeralError → String
  | .tooManyDigits count =>
    "Exceeds the limit (4300 digits) for integer string conversion: value has "
      ++ Numeral.digits count
      ++ " digits; use sys.set_int_max_str_digits() to increase the limit"
  | .tooLarge =>
    "Exceeds the limit (4300 digits) for integer string conversion; "
      ++ "use sys.set_int_max_str_digits() to increase the limit"

end AccumulatorMachine
