import AccumulatorMachine.Text.CodeRanges

/-!
# `AccumulatorMachine.Text.Utf8`: bytes to characters, with the place of a fault

A first byte tells how many bytes follow it and between which bounds
the second one lies; the others lie between `80` and `BF`. The
decoder carries the bounds of the bytes that are still owed and
recurses on the bytes.

A fault is told by the bytes that begin a character and cannot be
completed: by the first byte alone if nothing begins with it, and
otherwise by all bytes that fitted so far.
-/

set_option autoImplicit false

namespace AccumulatorMachine.Text

/-- What is wrong with bytes. -/
inductive Utf8Fault where
  | invalidStart
  | invalidContinuation
  | unexpectedEnd
deriving DecidableEq, Repr

/-- Bytes that cannot be decoded: what is wrong, where they begin, and
which they are. -/
structure Utf8Error where
  fault : Utf8Fault
  start : Nat
  bytes : List UInt8
deriving DecidableEq, Repr

/-- The wording of a fault. -/
def Utf8Fault.message : Utf8Fault → String
  | .invalidStart => "invalid start byte"
  | .invalidContinuation => "invalid continuation byte"
  | .unexpectedEnd => "unexpected end of data"

/-- The two hex digits of a byte. -/
def byteText (b : UInt8) : String :=
  String.ofList [Nat.digitChar (b.toNat / 16), Nat.digitChar (b.toNat % 16)]

/-- The wording of an error: one byte is shown, several are told by
their places. -/
def Utf8Error.message (e : Utf8Error) : String :=
  let start := toString e.start
  let place :=
    match e.bytes with
    | [b] => "byte 0x" ++ byteText b ++ " in position " ++ start
    | bytes => "bytes in position " ++ start ++ "-" ++ toString (e.start + bytes.length - 1)
  "'utf-8' codec can't decode " ++ place ++ ": " ++ e.fault.message

/-- What a first byte promises: the bits that it gives, and the bounds
of the bytes that follow. -/
def lead? (b : Nat) : Option (Nat × List (Nat × Nat)) :=
  let tail := (0x80, 0xBF)
  if b < 0x80 then some (b, [])
  else if b < 0xC2 then none
  else if b < 0xE0 then some (b - 0xC0, [tail])
  else if b = 0xE0 then some (0, [(0xA0, 0xBF), tail])
  else if b = 0xED then some (0xD, [(0x80, 0x9F), tail])
  else if b < 0xF0 then some (b - 0xE0, [tail, tail])
  else if b = 0xF0 then some (0, [(0x90, 0xBF), tail, tail])
  else if b < 0xF4 then some (b - 0xF0, [tail, tail, tail])
  else if b = 0xF4 then some (4, [(0x80, 0x8F), tail, tail])
  else none

/-- Decode bytes from place `start` on, where a character has begun
with the bytes `seen`, which give the bits `value`, and the bytes
`owed` are still to come. -/
def decodeFrom (start : Nat) (seen : List UInt8) (value : Nat) (owed : List (Nat × Nat)) :
    List UInt8 → Except Utf8Error (List Char)
  | [] => if seen.isEmpty then .ok [] else .error ⟨.unexpectedEnd, start, seen⟩
  | b :: rest =>
    match owed with
    | [] =>
      match lead? b.toNat with
      | none => .error ⟨.invalidStart, start, [b]⟩
      | some (bits, []) => do
        return Char.ofNat bits :: (← decodeFrom (start + 1) [] 0 [] rest)
      | some (bits, owed) => decodeFrom start [b] bits owed rest
    | bounds :: owed =>
      if bounds.1 ≤ b.toNat ∧ b.toNat ≤ bounds.2 then
        let bits := value * 64 + (b.toNat - 0x80)
        if owed.isEmpty then do
          return Char.ofNat bits :: (← decodeFrom (start + seen.length + 1) [] 0 [] rest)
        else decodeFrom start (seen ++ [b]) bits owed rest
      else .error ⟨.invalidContinuation, start, seen⟩

/-- Decode bytes to characters. -/
def decodeUtf8 (bytes : List UInt8) : Except Utf8Error (List Char) :=
  decodeFrom 0 [] 0 [] bytes

end AccumulatorMachine.Text
