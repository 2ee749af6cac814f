import AccumulatorMachine.FileName
import AccumulatorMachine.Listing.Reading
import AccumulatorMachine.Text.Utf8
import AccumulatorMachine.Time

/-!
# `AccumulatorMachine.Failure`: why a computation gives no value

Every operation has its own few causes of failure. `Failure` is their
union, for computations that are made of several operations, with the
wording of each. The command line adds two causes of its own: it can
leave a number out, and then nothing can be added to the accumulator
and the number of workers cannot be compared.
-/

set_option autoImplicit false

namespace AccumulatorMachine

/-- The causes for which a computation gives no value. -/
inductive Failure where
  | line (error : LineError)
  | numeral (error : NumeralError)
  | position (error : PositionError)
  | file (error : FileError)
  | nulInFileName
  | decoding (error : Text.Utf8Error)
  | unknownStatus (name : String)
  | time (error : TimeError)
  | emptyAccumulator
  | emptyWorkers
deriving DecidableEq, Repr

/-- The wording of a failure. -/
def Failure.message : Failure → String
  | .line error => error.message
  | .numeral error => error.message
  | .position error => error.message
  | .file error => error.message
  | .nulInFileName => "embedded null byte"
  | .decoding error => error.message
  | .unknownStatus name => Text.quoted name.toList ++ " is not a valid ExecStatus"
  | .time error => error.message
  | .emptyAccumulator => "'int' object is not iterable"
  | .emptyWorkers => "'<' not supported between instances of 'list' and 'int'"

/-- A refused listing as a failure. -/
def ListingError.failure : ListingError → Failure
  | .line error => .line error
  | .numeral error => .numeral error

end AccumulatorMachine
