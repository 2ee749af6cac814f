/-!
# `AccumulatorMachine.Text.Aligned`: texts filled up to a width

The columns of a table are filled up with spaces. A text that is as
wide as its column or wider is left as it is: nothing is ever cut.
-/

set_option autoImplicit false

namespace AccumulatorMachine.Text

/-- `width` spaces less the length of the text. -/
def fill (width : Nat) (text : String) : String :=
  String.ofList (List.replicate (width - text.length) ' ')

/-- The text at the right end of its column. -/
def alignRight (width : Nat) (text : String) : String := fill width text ++ text

/-- The text at the left end of its column. -/
def alignLeft (width : Nat) (text : String) : String := text ++ fill width text

end AccumulatorMachine.Text
