import AccumulatorMachine.CommandLine.Flag
import AccumulatorMachine.Numeral
import AccumulatorMachine.Text.Blank
import AccumulatorMachine.Text.Quoted

/-!
# `AccumulatorMachine.CommandLine.Request`: what the words of a command line ask for

First every word is classified: it is a flag, perhaps with a text
attached, or looks like a flag and is none, or is plain. A word is
plain if it has no dash in front, is a dash alone, looks like a
negative number, or has a space in it. Behind a double dash all words
are plain. A flag that is cut too short is told at once.

Then the words are gone through from the left. A flag that takes a
value has it attached or takes the next word, which must be plain. The
first plain word that is not a value names the file; others, and words
that look like flags and are none, are left over. The request for help
ends the reading; words left over are told at the end.
-/

set_option autoImplicit false

namespace AccumulatorMachine.CommandLine

open Text

/-- Why words cannot be understood. -/
inductive UsageError where
  | ambiguous (word : String) (candidates : List String)
  | expectedValue (flag : Flag)
  | invalidNumber (flag : Flag) (value : String)
  | ignoredValue (flag : Flag) (value : String)
  | unrecognized (words : List String)
deriving DecidableEq, Repr

/-- The wording of an error. -/
def UsageError.message : UsageError → String
  | .ambiguous word candidates =>
    "ambiguous option: " ++ word ++ " could match " ++ ", ".intercalate candidates
  | .expectedValue flag => "argument " ++ flag.title ++ ": expected one argument"
  | .invalidNumber flag value =>
    "argument " ++ flag.title ++ ": invalid int value: " ++ quoted value.toList
  | .ignoredValue flag value =>
    "argument " ++ flag.title ++ ": ignored explicit argument " ++ quoted value.toList
  | .unrecognized words => "unrecognized arguments: " ++ " ".intercalate words

/-! ### Classifying words -/

/-- A word of the command line. A flag is `joined` if it was spelled
with one dash, so that other letters may be joined to it. -/
inductive Word where
  | separator
  | plain (text : String)
  | flag (flag : Flag) (joined : Bool) (attached : Option (List Char))
  | unknown (text : String)
deriving DecidableEq, Repr

/-- Whether a text behind a dash makes a negative number: digits, or a
point with digits behind it and perhaps in front. A line feed at the
end does not count. -/
def isNumberBody (body : List Char) : Bool :=
  let body := if body.getLast? = some '\n' then body.dropLast else body
  let isDigit (c : Char) : Bool := (decimalDigit? c).isSome
  match body.dropWhile isDigit with
  | [] => !body.isEmpty
  | '.' :: places => !places.isEmpty && places.all isDigit
  | _ => false

/-- A word that is no flag. -/
def classifyRest (text : String) (body : List Char) : Word :=
  if isNumberBody body || text.toList.contains ' ' then .plain text else .unknown text

/-- Classify a word with a dash in front and `second` and `rest` behind
it. -/
def classifyDashed (text : String) (second : Char) (rest : List Char) :
    Except UsageError Word :=
  let chars := text.toList
  let joined := second ≠ '-'
  let name := chars.takeWhile (· ≠ '=')
  let attached : Option (List Char) :=
    match chars.dropWhile (· ≠ '=') with
    | '=' :: value => some value
    | _ => none
  -- A whole word comes before one that is cut at the equals sign.
  match Flag.ofSpelling? chars with
  | some flag => .ok (.flag flag joined none)
  | none =>
    match Flag.ofSpelling? name with
    | some flag => .ok (.flag flag joined attached)
    | none =>
      if joined then
        -- One dash: the first letter is the flag, and the rest is looked at later.
        match Flag.ofLetter? second with
        | some flag => .ok (.flag flag joined (some rest))
        | none => .ok (classifyRest text (second :: rest))
      else
        -- Two dashes: a name may be cut short.
        match Flag.beginningWith name with
        | [] => .ok (classifyRest text (second :: rest))
        | [(_, flag)] => .ok (.flag flag joined attached)
        | several => .error (.ambiguous text (several.map (·.1)))

/-- Classify a word in front of the double dash. -/
def classify (text : String) : Except UsageError Word :=
  match text.toList with
  | '-' :: second :: rest => classifyDashed text second rest
  | _ => .ok (.plain text)

/-- Classify all words. -/
def classifyAll : List String → Except UsageError (List Word)
  | [] => .ok []
  | text :: rest =>
    if text = "--" then .ok (.separator :: rest.map .plain)
    else do
      let word ← classify text
      return word :: (← classifyAll rest)

/-! ### Flags and their values -/

/-- What the command line is asked to do. A number that was left out on
purpose is missing. -/
structure Arguments where
  file : Option String := none
  initial : Option Int := some 0
  workers : Option Int := some 0
  verbose : Bool := false
  dumpOnly : Bool := false
  statsOnly : Bool := false
  noRepair : Bool := false
  survey : Bool := false
  json : Bool := false
deriving DecidableEq, Repr

/-- Turn on a flag without a value. -/
def Arguments.turnOn (a : Arguments) : Flag → Arguments
  | .verbose => { a with verbose := true }
  | .dumpOnly => { a with dumpOnly := true }
  | .statsOnly => { a with statsOnly := true }
  | .noRepair => { a with noRepair := true }
  | .survey => { a with survey := true }
  | .json => { a with json := true }
  | .help => a
  | .acc => a
  | .workers => a

/-- The number of a value: digits of any script, with white space at
both ends. A double dash that is attached to its flag leaves the
number out. -/
def numberOf (flag : Flag) (value : String) : Except UsageError (Option Int) :=
  if value = "--" then .ok none
  else
    let text := trim isWhiteSpace value.toList
    match (Numeral.scanSpread decimalDigit? text).map Numeral.Scanned.value with
    | some (.ok n) => .ok (some n)
    | _ => .error (.invalidNumber flag value)

/-- Set the value of a flag. -/
def Arguments.setValue (a : Arguments) (flag : Flag) (value : String) :
    Except UsageError Arguments := do
  let number ← numberOf flag value
  return if flag = .workers then { a with workers := number } else { a with initial := number }

/-- The flags of one word: those without a value, and perhaps one with
a value, which is attached or is the next word. -/
structure Bundle where
  flags : List Flag
  valued : Option (Flag × Option (List Char))
deriving DecidableEq, Repr

/-- A flag with nothing attached. -/
def Bundle.single (flag : Flag) : Bundle :=
  if flag.takesValue then ⟨[], some (flag, none)⟩ else ⟨[flag], none⟩

/-- A flag with a text attached. A flag that takes no value can be
followed by letters of other flags if it is a letter itself. -/
def Bundle.attached (flag : Flag) (joined : Bool) (text : List Char) :
    Except UsageError Bundle :=
  if flag.takesValue then .ok ⟨[], some (flag, some text)⟩
  else if joined then
    match text with
    | [] => .error (.ignoredValue flag "")
    | letter :: rest =>
      match Flag.ofLetter? letter with
      | none => .error (.ignoredValue flag (String.ofList text))
      | some next => do
        let tail ← if rest.isEmpty then .ok (Bundle.single next) else Bundle.attached next true rest
        return { tail with flags := flag :: tail.flags }
  else .error (.ignoredValue flag (String.ofList text))

/-- The flags of a word. -/
def Bundle.ofWord (flag : Flag) (joined : Bool) (attached : Option (List Char)) :
    Except UsageError Bundle :=
  match attached with
  | none => .ok (Bundle.single flag)
  | some text => Bundle.attached flag joined text

/-! ### Going through the words -/

/-- What the words asked for so far: whether the file was named, and
which words are left over. -/
structure Progress where
  arguments : Arguments := {}
  fileNamed : Bool := false
  leftOver : List String := []
deriving DecidableEq, Repr

namespace Progress

/-- Leave a word over. -/
def leave (s : Progress) (text : String) : Progress :=
  { s with leftOver := s.leftOver ++ [text] }

/-- A plain word that is not a value: it names the file if no other
does, and is left over otherwise. -/
def takePlain (s : Progress) (text : String) : Progress :=
  if s.fileNamed then s.leave text
  else { s with arguments := { s.arguments with file := some text }, fileNamed := true }

/-- Turn on flags without a value. -/
def turnOn (s : Progress) (flags : List Flag) : Progress :=
  { s with arguments := flags.foldl Arguments.turnOn s.arguments }

/-- Set the value of a flag. -/
def setValue (s : Progress) (flag : Flag) (value : String) : Except UsageError Progress := do
  return { s with arguments := ← s.arguments.setValue flag value }

/-- Go through the words; nothing is the request for help. A double
dash next to the file is passed over, and is left over elsewhere. -/
def through (s : Progress) : List Word → Except UsageError (Option Progress)
  | [] => .ok (some s)
  | .unknown text :: rest => (s.leave text).through rest
  | .plain text :: .separator :: rest =>
    if s.fileNamed then ((s.leave text).leave "--").through rest
    else (s.takePlain text).through rest
  | .plain text :: rest => (s.takePlain text).through rest
  | .separator :: rest => (if s.fileNamed then s.leave "--" else s).through rest
  | .flag flag joined attached :: rest => do
    -- All flags of a bundle are known before any of them acts, so a bad one is an error even
    -- behind the request for help.
    let bundle ← Bundle.ofWord flag joined attached
    match bundle.valued with
    | none =>
      if bundle.flags.contains .help then return none
      (s.turnOn bundle.flags).through rest
    | some (valued, some text) =>
      if bundle.flags.contains .help then return none
      ((← (s.turnOn bundle.flags).setValue valued (String.ofList text))).through rest
    | some (valued, none) =>
      match rest with
      | .plain text :: rest =>
        if bundle.flags.contains .help then return none
        ((← (s.turnOn bundle.flags).setValue valued text)).through rest
      | _ => .error (.expectedValue valued)

end Progress

/-- What a command line asks for. -/
inductive Request where
  | help
  | work (arguments : Arguments)
deriving DecidableEq, Repr

/-- Understand the words of a command line. -/
def Request.ofWords (words : List String) : Except UsageError Request := do
  let classified ← classifyAll words
  match ← Progress.through {} classified with
  | none => return .help
  | some s =>
    if s.leftOver.isEmpty then return .work s.arguments
    else .error (.unrecognized s.leftOver)

end AccumulatorMachine.CommandLine
