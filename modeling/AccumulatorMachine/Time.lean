import AccumulatorMachine.Text.FixedPoint

/-!
# `AccumulatorMachine.Time`: times in ticks, kept to 53 bits

A second has `ticksPerSecond` ticks, a power of two. Times are kept to
`timeBits` bits: a reading of a clock, the difference of two readings,
and the milliseconds of a time are each taken to the nearest number
with so many bits. Below `2 ^ 53` ticks nothing is lost. Seconds and
milliseconds stay below `2 ^ 1024`: a time that has more seconds is
refused, and one that has more milliseconds is shown as infinite.

A `Clock` says how the differences of its readings are kept, so that
it can also be one that loses nothing.
-/

set_option autoImplicit false

namespace AccumulatorMachine

/-- The ticks of a second. -/
def ticksPerSecond : Nat := 1024

/-- The bits of a time. -/
def timeBits : Nat := 53

/-- A number of ticks as it is kept. -/
def keptTicks (ticks : Int) : Int := roundToBits timeBits ticks 1

/-- The number of ticks at which numbers of seconds, or numbers of
milliseconds counted in the same parts, become too large. -/
def tickLimit : Nat := Nat.pow 2 1024 * ticksPerSecond

/-- A time that has too many seconds. -/
structure TimeError where
  ticks : Int
deriving DecidableEq, Repr

/-- The wording of a refusal. -/
def TimeError.message (_ : TimeError) : String :=
  "integer division result too large for a float"

/-- The time of a number of ticks. -/
def timeOfTicks (ticks : Int) : Except TimeError Int :=
  if (keptTicks ticks).natAbs < tickLimit then .ok (keptTicks ticks) else .error ⟨ticks⟩

/-- The milliseconds of a time with one decimal place. -/
def millisecondsText (ticks : Int) : String :=
  let thousandfold := keptTicks (1000 * ticks)
  if thousandfold.natAbs < tickLimit then Text.oneDecimal thousandfold ticksPerSecond
  else if thousandfold < 0 then "-inf" else "inf"

/-- Short times are kept as they are. -/
theorem keptTicks_of_lt {ticks : Int} (h : ticks.natAbs < Nat.pow 2 timeBits) :
    keptTicks ticks = ticks :=
  roundToBits_of_lt (by decide) h

/-! ### Clocks -/

/-- A clock: its readings in ticks, and how their differences are kept. -/
structure Clock where
  reading : Nat → Int
  keep : Int → Int := keptTicks

namespace Clock

/-- The clock with the given readings; the last one stays. -/
def ofReadings (readings : List Int) : Clock where
  reading k :=
    match readings[k]? with
    | some ticks => keptTicks ticks
    | none => keptTicks (readings.getLast?.getD 0)

/-- The time from one reading to another. -/
def elapsed (clock : Clock) (first last : Nat) : Int :=
  clock.keep (clock.reading last - clock.reading first)

end Clock

end AccumulatorMachine
