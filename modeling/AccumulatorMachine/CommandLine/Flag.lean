/-!
# `AccumulatorMachine.CommandLine.Flag`: the flags of the command line

A flag has one or two spellings. A spelling with two dashes may be cut
short as long as it is not the beginning of another flag's; a spelling
with one dash is one letter, and letters may be joined behind one
dash. Two flags take a value.
-/

set_option autoImplicit false

namespace AccumulatorMachine.CommandLine

/-- The flags. -/
inductive Flag where
  | help
  | acc
  | workers
  | verbose
  | dumpOnly
  | statsOnly
  | noRepair
  | survey
  | json
deriving DecidableEq, Repr

namespace Flag

/-- All spellings, in the order in which they are listed to the user. -/
def spellings : List (String × Flag) :=
  [("-h", .help), ("--help", .help), ("--acc", .acc), ("-a", .acc), ("--workers", .workers),
   ("-w", .workers), ("--verbose", .verbose), ("-v", .verbose), ("--dump-only", .dumpOnly),
   ("--stats-only", .statsOnly), ("--no-repair", .noRepair), ("--survey", .survey),
   ("--json", .json)]

/-- The flag of a spelling. -/
def ofSpelling? (text : List Char) : Option Flag := spellings.lookup (String.ofList text)

/-- The flag of a letter. -/
def ofLetter? (letter : Char) : Option Flag := ofSpelling? ['-', letter]

/-- The spellings that begin with a text, with their flags. -/
def beginningWith (text : List Char) : List (String × Flag) :=
  spellings.filter fun entry => text.isPrefixOf entry.1.toList

/-- The spellings of a flag, as they are shown in a message. -/
def title (f : Flag) : String :=
  "/".intercalate ((spellings.filter fun entry => entry.2 = f).map (·.1))

/-- Whether the flag takes a value. -/
def takesValue : Flag → Bool
  | .acc => true
  | .workers => true
  | _ => false

end Flag

end AccumulatorMachine.CommandLine
