/-!
# `AccumulatorMachine.Text.CodeRanges`: sets of characters as runs of code points

A property of characters is kept as the list of the runs of code
points that have it. `CodeRanges.contains` asks whether a character
is in one of the runs; the tables of this library are values of
`CodeRanges`.
-/

set_option autoImplicit false

namespace AccumulatorMachine.Text

/-- Runs of code points, each given by its first and its last one. -/
abbrev CodeRanges : Type := List (Nat × Nat)

/-- Whether one of the runs holds the character. -/
def CodeRanges.contains (ranges : CodeRanges) (c : Char) : Bool :=
  ranges.any fun run => run.1 ≤ c.toNat && c.toNat ≤ run.2

end AccumulatorMachine.Text
