import AccumulatorMachine.Rounding

/-!
# `AccumulatorMachine.Text.FixedPoint`: quotients with one decimal place

A quotient is shown with one place after the point. It is rounded to
the nearest tenth, on its exact value; a quotient half way between two
tenths goes to the even one.
-/

set_option autoImplicit false

namespace AccumulatorMachine.Text

/-- A number of tenths, with a point before the last digit. -/
def tenthsText (tenths : Int) : String :=
  (if tenths < 0 then "-" else "") ++ toString (tenths.natAbs / 10) ++ "."
    ++ toString (tenths.natAbs % 10)

/-- The quotient `num / den` with one decimal place. -/
def oneDecimal (num : Int) (den : Nat) : String := tenthsText (roundHalfEven (10 * num) den)

end AccumulatorMachine.Text
