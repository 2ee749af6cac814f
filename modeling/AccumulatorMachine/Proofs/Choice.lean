import Mathlib.Data.List.TakeWhile
import AccumulatorMachine.CommandLine.Request
import AccumulatorMachine.Proofs.LineGrammar

/-!
# `AccumulatorMachine.Proofs.Choice`: choices and the words that spell them

A caller chooses a file, two numbers, and what is to be done. A `Choice`
is one of these, and `argumentsOf` are the arguments of a list of them: a
number that is chosen twice is the last one, and one that is not chosen is
`0`.

`Spells cs words` says that the words of a command line spell the choices
`cs`, in this order:

* a file is a word without a dash in front, or the last word behind a
  double dash;
* any other choice is a flag, in one of two spellings (`Leads`): two
  dashes and the name, which may be cut short, or one dash and the letter,
  with letters for a verbose run between them;
* the number of a flag is the next word, or is attached to the flag: to a
  name behind an equals sign, and to a letter with or without one.

All choices are spelled by some words, in any order (`exists_spells`).

Words that spell choices are understood as the arguments of the choices
(`Spells.understood`). A word is classified on its own: as a bundle of
flags if it leads with one (`Leads.bundles`, `Leads.bundles_attached`), and
as plain if it names a file or is a number. Going through the words that
were classified then makes the choices one after the other: that is
`Chooses`, which says so from any progress on, and has a lemma for each
way to spell a choice. `Spells.chooses` puts them together, by induction
on the words.
-/

set_option autoImplicit false

namespace AccumulatorMachine

open Numeral (Form Digits denoted digitLimit)

namespace Text

/-- ASCII digits are digits of a script. -/
theorem decimalDigit?_of_asciiDigit? {c : Char} {d : Nat} (h : asciiDigit? c = some d) :
    decimalDigit? c = some d := by
  rw [asciiDigit?] at h
  simp [decimalDigit?, zeros, h]

/-- White space is blank, so what is not blank is no white space. -/
theorem isWhiteSpace_eq_false {c : Char} (h : isBlank c = false) : isWhiteSpace c = false := by
  cases hc : isWhiteSpace c with
  | false => rfl
  | true => exact absurd (isBlank_of_isWhiteSpace hc) (by simp [h])

/-- A text without characters to drop stays as it is. -/
theorem trim_eq_self {drop : Char → Bool} {text : List Char} (h : ∀ c ∈ text, drop c = false) :
    trim drop text = text := by
  have hdrop : ∀ l : List Char, (∀ c ∈ l, drop c = false) → l.dropWhile drop = l := by
    intro l hl
    cases l with
    | nil => rfl
    | cons c l => rw [List.dropWhile_cons_of_neg (by simp [hl c List.mem_cons_self])]
  rw [trim, hdrop text h, hdrop _ fun c hc => h c (List.mem_reverse.mp hc), List.reverse_reverse]

end Text

namespace Numeral
open Text

variable {text ds : List Char} {negative : Bool}

/-- Digits without underscores between them are read as they are. -/
theorem scanGrouped_of_digits (h : Digits ds) :
    scanGrouped decimalDigit? ds = some (ds.map (·.toNat - 48)) := by
  obtain ⟨hne, hdigit⟩ := h
  induction ds with
  | nil => exact absurd rfl hne
  | cons c rest ih =>
      have hc : decimalDigit? c = some (c.toNat - 48) :=
        decimalDigit?_of_asciiDigit?
          (asciiDigit?_eq_some_iff.mpr ⟨hdigit c List.mem_cons_self, rfl⟩)
      cases rest with
      | nil => simp [scanGrouped, hc]
      | cons d rest =>
          have hrest := ih (by simp) fun x hx => hdigit x (List.mem_cons_of_mem c hx)
          have hd : d ≠ '_' := by
            rintro rfl
            exact absurd (hdigit '_' (by simp)) (by decide)
          simp [scanGrouped, hc, hrest, hd]

/-- So a numeral of a listing is read by the more generous rules of the
command line, too, and as the same integer. -/
theorem scanSpread_of_form (h : Form text negative ds) :
    scanSpread decimalDigit? text = some (scanned negative ds) := by
  obtain ⟨htake, hdigits⟩ := form_iff.mp h
  simp [scanSpread, htake, scanGrouped_of_digits hdigits, scanned]

end Numeral

namespace CommandLine

/-! ### Choices -/

/-- Something that a caller chooses. -/
inductive Choice where
  | file (name : String)
  | initial (n : Int)
  | workers (n : Int)
  | verbose
  | dumpOnly
  | statsOnly
  | noRepair
  | survey
  | json
deriving DecidableEq, Repr

namespace Choice

/-- The file that a choice names. -/
def file? : Choice → Option String
  | .file name => some name
  | _ => none

/-- The accumulator that a choice sets. -/
def initial? : Choice → Option Int
  | .initial n => some n
  | _ => none

/-- The number of workers that a choice sets. -/
def workers? : Choice → Option Int
  | .workers n => some n
  | _ => none

end Choice

/-- The accumulator that was chosen last, or `0`. -/
def initialOf (cs : List Choice) : Int := (cs.filterMap Choice.initial?).getLast?.getD 0

/-- The number of workers that was chosen last, or `0`. -/
def workersOf (cs : List Choice) : Int := (cs.filterMap Choice.workers?).getLast?.getD 0

/-- The arguments that the choices amount to. -/
def argumentsOf (cs : List Choice) : Arguments where
  file := (cs.filterMap Choice.file?).getLast?
  initial := some (initialOf cs)
  workers := some (workersOf cs)
  verbose := Choice.verbose ∈ cs
  dumpOnly := Choice.dumpOnly ∈ cs
  statsOnly := Choice.statsOnly ∈ cs
  noRepair := Choice.noRepair ∈ cs
  survey := Choice.survey ∈ cs
  json := Choice.json ∈ cs

/-- Make a choice. -/
def Arguments.choose (a : Arguments) : Choice → Arguments
  | .file name => { a with file := some name }
  | .initial n => { a with initial := some n }
  | .workers n => { a with workers := some n }
  | .verbose => { a with verbose := true }
  | .dumpOnly => { a with dumpOnly := true }
  | .statsOnly => { a with statsOnly := true }
  | .noRepair => { a with noRepair := true }
  | .survey => { a with survey := true }
  | .json => { a with json := true }

/-- A search is left out only by choice. -/
theorem noRepair_argumentsOf {cs : List Choice} :
    (argumentsOf cs).noRepair = false ↔ Choice.noRepair ∉ cs := decide_eq_false_iff_not

/-- A choice that is made last changes the arguments of the others. -/
theorem argumentsOf_snoc (cs : List Choice) (c : Choice) :
    argumentsOf (cs ++ [c]) = (argumentsOf cs).choose c := by
  cases c <;> simp [argumentsOf, Arguments.choose, initialOf, workersOf, Choice.file?,
    Choice.initial?, Choice.workers?]

/-- Choices that are made after others amount to all of them. -/
theorem foldl_choose (cs ds : List Choice) :
    ds.foldl Arguments.choose (argumentsOf cs) = argumentsOf (cs ++ ds) := by
  induction ds generalizing cs with
  | nil => rw [List.foldl_nil, List.append_nil]
  | cons d ds ih =>
      rw [List.foldl_cons, ← argumentsOf_snoc, ih, List.append_assoc, List.singleton_append]

/-! ### Words -/

namespace Flag

/-- The spelling with two dashes. -/
def long : Flag → String
  | .help => "--help"
  | .acc => "--acc"
  | .workers => "--workers"
  | .verbose => "--verbose"
  | .dumpOnly => "--dump-only"
  | .statsOnly => "--stats-only"
  | .noRepair => "--no-repair"
  | .survey => "--survey"
  | .json => "--json"

/-- How many characters of it tell the flag from all others. -/
def least : Flag → Nat
  | .statsOnly => 4
  | .survey => 4
  | _ => 3

/-- The letter of a flag, if it has one. -/
def letter? : Flag → Option Char
  | .acc => some 'a'
  | .workers => some 'w'
  | .verbose => some 'v'
  | _ => none

/-- The choice that a flag without a value stands for. -/
def switch? : Flag → Option Choice
  | .verbose => some .verbose
  | .dumpOnly => some .dumpOnly
  | .statsOnly => some .statsOnly
  | .noRepair => some .noRepair
  | .survey => some .survey
  | .json => some .json
  | _ => none

/-- The choice of a number that a flag with a value stands for. -/
def number? : Flag → Option (Int → Choice)
  | .acc => some .initial
  | .workers => some .workers
  | _ => none

end Flag

/-- Whether a text is a numeral of an integer, with no more digits than the
limit. -/
def Denotes (text : List Char) (n : Int) : Prop :=
  ∃ negative ds, Form text negative ds ∧ ds.length ≤ digitLimit ∧ denoted negative ds = n

/-- The beginnings of words that lead with a flag: its name, perhaps cut
short, or one dash and its letter with letters for a verbose run between
them. Told are how many such letters there are, and what has to stand
between the flag and a value that is attached. -/
inductive Leads : List Char → Nat → Flag → List Char → Prop
  | long {f : Flag} {n : Nat} (hleast : f.least ≤ n) : Leads (f.long.toList.take n) 0 f ['=']
  | letters {f : Flag} {c : Char} (k : Nat) (hletter : f.letter? = some c) :
      Leads ('-' :: (List.replicate k 'v' ++ [c])) k f []
  | letter {f : Flag} {c : Char} (hletter : f.letter? = some c) : Leads ['-', c] 0 f ['=']

/-- The words that spell choices. At most one file is named. -/
inductive Spells : List Choice → List String → Prop
  | done : Spells [] []
  | file {name : String} {cs : List Choice} {words : List String}
      (hdash : name.toList.head? ≠ some '-') (hone : ∀ other, Choice.file other ∉ cs)
      (hrest : Spells cs words) : Spells (.file name :: cs) (name :: words)
  | lastFile (name : String) : Spells [.file name] ["--", name]
  | switch {word between : List Char} {k : Nat} {f : Flag} {c : Choice} {cs : List Choice}
      {words : List String} (hword : Leads word k f between) (hc : f.switch? = some c)
      (hrest : Spells cs words) :
      Spells (List.replicate k .verbose ++ c :: cs) (String.ofList word :: words)
  | next {word between value : List Char} {k : Nat} {f : Flag} {c : Int → Choice} {n : Int}
      {cs : List Choice} {words : List String} (hword : Leads word k f between)
      (hc : f.number? = some c) (hvalue : Denotes value n) (hrest : Spells cs words) :
      Spells (List.replicate k .verbose ++ c n :: cs)
        (String.ofList word :: String.ofList value :: words)
  | attached {word between value : List Char} {k : Nat} {f : Flag} {c : Int → Choice} {n : Int}
      {cs : List Choice} {words : List String} (hword : Leads word k f between)
      (hc : f.number? = some c) (hvalue : Denotes value n) (hrest : Spells cs words) :
      Spells (List.replicate k .verbose ++ c n :: cs)
        (String.ofList (word ++ between ++ value) :: words)

/-- An integer that is not too long is denoted by its sign and digits. -/
theorem denotes_signedText {n : Int} (h : Numeral.Short n) : Denotes (Numeral.signedText n) n :=
  ⟨_, _, Numeral.form_signedText n, h, Numeral.denoted_toDigits n⟩

/-- A choice that is not the file is spelled by the name of a flag, in front
of all words. -/
theorem Spells.exists_cons {cs : List Choice} {words : List String} (h : Spells cs words)
    (c : Choice) (hfile : c.file? = none)
    (hshort : ∀ n, c = .initial n ∨ c = .workers n → Numeral.Short n) :
    ∃ front, Spells (c :: cs) (front ++ words) := by
  have hflag (f : Flag) : Leads (f.long.toList.take f.least) 0 f ['='] := .long (Nat.le_refl _)
  have hswitch (f : Flag) (hc : f.switch? = some c) :
      ∃ front, Spells (c :: cs) (front ++ words) := ⟨[_], .switch (hflag f) hc h⟩
  cases c with
  | file name => cases hfile
  | initial n => exact ⟨[_, _], .next (hflag .acc) rfl (denotes_signedText (hshort n (.inl rfl))) h⟩
  | workers n =>
      exact ⟨[_, _], .next (hflag .workers) rfl (denotes_signedText (hshort n (.inr rfl))) h⟩
  | verbose => exact hswitch .verbose rfl
  | dumpOnly => exact hswitch .dumpOnly rfl
  | statsOnly => exact hswitch .statsOnly rfl
  | noRepair => exact hswitch .noRepair rfl
  | survey => exact hswitch .survey rfl
  | json => exact hswitch .json rfl

/-- Choices other than the file are spelled in any order, with or without a
file behind them, whatever its name is. -/
theorem exists_spells {cs : List Choice} (hfile : ∀ c ∈ cs, c.file? = none)
    (hshort : ∀ c ∈ cs, ∀ n, c = .initial n ∨ c = .workers n → Numeral.Short n) :
    (∃ words, Spells cs words) ∧ ∀ name, ∃ words, Spells (cs ++ [.file name]) words := by
  have hfront : ∀ ds words, Spells ds words → ∃ words', Spells (cs ++ ds) words' := by
    intro ds words h
    induction cs with
    | nil => exact ⟨words, h⟩
    | cons c cs ih =>
        obtain ⟨words', h'⟩ := ih (fun d hd => hfile d (List.mem_cons_of_mem c hd))
          fun d hd => hshort d (List.mem_cons_of_mem c hd)
        obtain ⟨front, hc⟩ :=
          h'.exists_cons c (hfile c List.mem_cons_self) (hshort c List.mem_cons_self)
        exact ⟨_, hc⟩
  refine ⟨?_, fun name => hfront _ _ (.lastFile name)⟩
  simpa using hfront [] [] .done

/-! ### Values -/

section Values

variable {value : List Char} {n : Int} {flag : Flag}

/-- A numeral has visible characters. -/
theorem Denotes.graphic (h : Denotes value n) : ∀ c ∈ value, Text.Graphic c := by
  obtain ⟨negative, ds, hform, -⟩ := h
  exact hform.graphic

/-- It has a digit. -/
theorem Denotes.exists_digit (h : Denotes value n) : ∃ c ∈ value, c.isDigit = true := by
  obtain ⟨negative, ds, hform, -⟩ := h
  obtain ⟨hne, hdigit⟩ := hform.digits_right
  obtain ⟨c, hc⟩ := List.exists_mem_of_ne_nil ds hne
  refine ⟨c, ?_, hdigit c hc⟩
  cases hform with
  | bare => exact hc
  | plus => exact List.mem_cons_of_mem _ hc
  | minus => exact List.mem_cons_of_mem _ hc

/-- It has no equals sign, so that what stands before one in a word does not
reach into it. -/
theorem Denotes.equals_notMem (h : Denotes value n) : '=' ∉ value := by
  obtain ⟨negative, ds, hform, -⟩ := h
  have hds : '=' ∉ ds := fun hmem => absurd (hform.digits_right.2 _ hmem) (by decide)
  cases hform with
  | bare => exact hds
  | plus => simpa using hds
  | minus => simpa using hds

/-- A numeral that is the value of a flag is its number. -/
theorem numberOf_of_denotes (h : Denotes value n) (flag : Flag) :
    numberOf flag (String.ofList value) = .ok (some n) := by
  obtain ⟨c, hc, hdigit⟩ := h.exists_digit
  -- A double dash would be dropped as a value. A numeral has a digit, so it is none.
  have hdashes : String.ofList value ≠ "--" := by
    intro heq
    have hvalue : value = ['-', '-'] := by
      rw [← String.toList_ofList (l := value), heq]
      rfl
    rw [hvalue] at hc
    simp only [List.mem_cons, List.not_mem_nil, or_false, or_self] at hc
    rw [hc] at hdigit
    exact absurd hdigit (by decide)
  -- No blanks stand around a numeral that are to be stripped.
  have htrim : Text.trim Text.isWhiteSpace value = value :=
    Text.trim_eq_self fun c hc => Text.isWhiteSpace_eq_false (h.graphic c hc).isBlank_eq_false
  obtain ⟨negative, ds, hform, hlength, hn⟩ := h
  rw [numberOf, if_neg hdashes, String.toList_ofList]
  simp only [htrim, Numeral.scanSpread_of_form hform, Option.map_some, Numeral.value_scanned,
    if_pos hlength, hn]

end Values

/-! ### Spellings -/

namespace Flag

variable {text : List Char}

/-- A text that is none of the spellings has no flag. -/
theorem ofSpelling?_eq_none (h : ∀ entry ∈ spellings, text ≠ entry.1.toList) :
    ofSpelling? text = none := by
  rw [ofSpelling?, List.lookup_eq_none_iff]
  intro entry hentry
  have hne : String.ofList text ≠ entry.1 := fun heq =>
    h entry hentry (by rw [← heq, String.toList_ofList])
  simpa using hne

/-- No spelling holds an equals sign or a digit. -/
theorem ofSpelling?_eq_none_of_mem {c : Char} (hmem : c ∈ text) (hc : c = '=' ∨ c.isDigit = true) :
    ofSpelling? text = none := by
  refine ofSpelling?_eq_none fun entry hentry heq => ?_
  have hall : ∀ entry ∈ spellings,
      '=' ∉ entry.1.toList ∧ entry.1.toList.all (!Char.isDigit ·) = true := by decide
  obtain ⟨hequals, hdigits⟩ := hall entry hentry
  rw [heq] at hmem
  rcases hc with rfl | hdigit
  · exact hequals hmem
  · have hnot := List.all_eq_true.mp hdigits c hmem
    simp [hdigit] at hnot

/-- A spelling with one dash is a letter. -/
theorem ofSpelling?_eq_none_of_letters {second : Char} {rest : List Char} (hsecond : second ≠ '-')
    (hrest : rest ≠ []) : ofSpelling? ('-' :: second :: rest) = none := by
  refine ofSpelling?_eq_none fun entry hentry heq => ?_
  have hall : ∀ entry ∈ spellings, entry.1.toList[1]? = some '-' ∨ entry.1.toList.length = 2 := by
    decide
  rcases hall entry hentry with hdash | hlength
  · rw [← heq] at hdash
    exact hsecond (Option.some.inj hdash)
  · rw [← heq] at hlength
    exact hrest (List.length_eq_zero_iff.mp (by simpa using hlength))

/-- A letter is looked up as its flag. -/
theorem ofLetter?_letter {f : Flag} {c : Char} (h : f.letter? = some c) :
    ofLetter? c = some f ∧ c ≠ '-' ∧ c ≠ '=' := by
  cases f <;> cases h <;> decide

/-- A name with two dashes that is not cut too short has no equals sign in
it, and is the spelling of its flag or the beginning of no other one. -/
theorem exists_long_take (f : Flag) {n : Nat} (h : f.least ≤ n) :
    ∃ rest, f.long.toList.take n = '-' :: '-' :: rest ∧ '=' ∉ '-' :: '-' :: rest
      ∧ (ofSpelling? ('-' :: '-' :: rest) = some f
        ∨ ofSpelling? ('-' :: '-' :: rest) = none
          ∧ (beginningWith ('-' :: '-' :: rest)).map (·.2) = [f]) := by
  -- There are few flags, and their names are short.
  have hall : ∀ m < 13, f.least ≤ m →
      f.long.toList.take m = '-' :: '-' :: (f.long.toList.take m).drop 2
      ∧ '=' ∉ f.long.toList.take m
      ∧ (ofSpelling? (f.long.toList.take m) = some f
        ∨ ofSpelling? (f.long.toList.take m) = none
          ∧ (beginningWith (f.long.toList.take m)).map (·.2) = [f]) := by
    cases f <;> decide +kernel
  have hlength : f.long.toList.length < 13 ∧ f.least ≤ f.long.toList.length := by
    cases f <;> decide
  have htake : f.long.toList.take n = f.long.toList.take (min n f.long.toList.length) :=
    List.take_eq_take_min
  obtain ⟨hdashes, hequals, hspelling⟩ :=
    hall (min n f.long.toList.length) (by omega) (by omega)
  rw [hdashes] at hequals hspelling
  exact ⟨_, htake.trans hdashes, hequals, hspelling⟩

end Flag

/-! ### One word -/

/-- A word with a dash in front is classified by what comes after it. -/
theorem classify_dashed (second : Char) (rest : List Char) :
    classify (String.ofList ('-' :: second :: rest))
      = classifyDashed (String.ofList ('-' :: second :: rest)) second rest := by
  rw [classify, String.toList_ofList]
  rfl

/-- What stands before the first equals sign, and what is left. -/
theorem takeWhile_equals {l : List Char} (h : '=' ∉ l) (rest : List Char) :
    (l ++ '=' :: rest).takeWhile (fun c => decide (c ≠ '=')) = l
    ∧ (l ++ '=' :: rest).dropWhile (fun c => decide (c ≠ '=')) = '=' :: rest := by
  have hall : ∀ c ∈ l, decide (c ≠ '=') = true := fun c hc => decide_eq_true fun heq => h (heq ▸ hc)
  constructor
  · rw [List.takeWhile_append_of_pos hall]
    simp
  · rw [List.dropWhile_append_of_pos hall]
    simp

/-- Without an equals sign that is the whole text, and nothing. -/
theorem takeWhile_no_equals {l : List Char} (h : '=' ∉ l) :
    l.takeWhile (fun c => decide (c ≠ '=')) = l
    ∧ l.dropWhile (fun c => decide (c ≠ '=')) = [] := by
  have hall : ∀ c ∈ l, decide (c ≠ '=') = true := fun c hc => decide_eq_true fun heq => h (heq ▸ hc)
  exact ⟨List.takeWhile_eq_self_iff.mpr hall, List.dropWhile_eq_nil_iff.mpr hall⟩

variable {f : Flag} {n : Nat}

/-- A name with two dashes is classified as its flag. -/
theorem classify_long (h : f.least ≤ n) :
    classify (String.ofList (f.long.toList.take n)) = .ok (.flag f false none) := by
  obtain ⟨rest, hword, hequals, hspelling⟩ := f.exists_long_take h
  obtain ⟨htake, hdrop⟩ := takeWhile_no_equals hequals
  rw [hword, classify_dashed, classifyDashed, String.toList_ofList]
  simp only [htake, hdrop]
  rcases hspelling with hfull | ⟨hnone, hshort⟩
  · simp [hfull]
  · obtain ⟨entry, hentry, rfl⟩ := List.map_eq_singleton_iff.mp hshort
    simp [hnone, hentry]

/-- What stands behind an equals sign is attached to the flag. -/
theorem classify_long_attached (h : f.least ≤ n) (value : List Char) :
    classify (String.ofList (f.long.toList.take n ++ ['='] ++ value))
      = .ok (.flag f false (some value)) := by
  obtain ⟨rest, hword, hequals, hspelling⟩ := f.exists_long_take h
  obtain ⟨htake, hdrop⟩ := takeWhile_equals hequals value
  -- With what is attached the word is no spelling, so it is cut at the equals sign.
  have hspelled : Flag.ofSpelling? ('-' :: '-' :: rest ++ '=' :: value) = none :=
    Flag.ofSpelling?_eq_none_of_mem (c := '=') (by simp) (.inl rfl)
  rw [hword, List.append_assoc, List.singleton_append, List.cons_append, List.cons_append,
    classify_dashed, classifyDashed, String.toList_ofList]
  simp only [List.cons_append] at htake hdrop hspelled
  simp only [htake, hdrop, hspelled]
  rcases hspelling with hfull | ⟨hnone, hshort⟩
  · simp [hfull]
  · obtain ⟨entry, hentry, rfl⟩ := List.map_eq_singleton_iff.mp hshort
    simp [hnone, hentry]

/-- One dash and a letter are classified as its flag. What comes after the
letter is attached. -/
theorem classify_letters {second : Char} {rest : List Char} (hsecond : second ≠ '-')
    (hletter : Flag.ofLetter? second = some f) (hequals : '=' ∉ second :: rest) :
    classify (String.ofList ('-' :: second :: rest))
      = .ok (.flag f true (if rest = [] then none else some rest)) := by
  have hnotMem : '=' ∉ '-' :: second :: rest := by simpa using hequals
  obtain ⟨htake, -⟩ := takeWhile_no_equals hnotMem
  rw [classify_dashed, classifyDashed, String.toList_ofList]
  simp only [htake]
  -- A letter alone is a spelling. With more behind it the word is none, and the letter is looked
  -- up by itself.
  by_cases hrest : rest = []
  · have hspelled : Flag.ofSpelling? ['-', second] = some f := hletter
    simp [hrest, hspelled, hsecond]
  · have hspelled := Flag.ofSpelling?_eq_none_of_letters hsecond hrest
    simp [hrest, hspelled, hsecond, hletter]

/-- What stands behind an equals sign is attached to a letter, too. -/
theorem classify_letter_attached {second : Char} (hsecond : second ≠ '-')
    (hletter : Flag.ofLetter? second = some f) (hequals : second ≠ '=') (value : List Char) :
    classify (String.ofList (['-', second] ++ ['='] ++ value))
      = .ok (.flag f true (some value)) := by
  have hnotMem : '=' ∉ ['-', second] := by simpa using Ne.symm hequals
  obtain ⟨htake, hdrop⟩ := takeWhile_equals hnotMem value
  have hspelled : Flag.ofSpelling? (['-', second] ++ '=' :: value) = none :=
    Flag.ofSpelling?_eq_none_of_mem (c := '=') (by simp) (.inl rfl)
  have hname : Flag.ofSpelling? ['-', second] = some f := hletter
  rw [List.append_assoc, List.singleton_append, List.cons_append, List.cons_append,
    classify_dashed, classifyDashed, String.toList_ofList]
  simp only [List.cons_append, List.nil_append] at htake hdrop hspelled ⊢
  simp only [htake, hdrop, hspelled, hname]
  simp [hsecond]

/-- A word without a dash in front is plain. -/
theorem classify_plain {text : String} (h : text.toList.head? ≠ some '-') :
    classify text = .ok (.plain text) := by
  unfold classify
  split
  · rename_i heq
    exact absurd (by rw [heq]; rfl) h
  · rfl

/-- A minus sign with digits behind it looks like a negative number. -/
theorem isNumberBody_of_digits {ds : List Char} (h : Digits ds) : isNumberBody ds = true := by
  obtain ⟨hne, hdigit⟩ := h
  -- A line feed at the end would be cut off first.
  have hlast : ds.getLast? ≠ some '\n' := by
    intro heq
    exact absurd (hdigit _ (List.mem_of_getLast? heq)) (by decide)
  have hall : ∀ c ∈ ds, (Text.decimalDigit? c).isSome = true := by
    intro c hc
    rw [Text.decimalDigit?_of_asciiDigit? (Text.asciiDigit?_eq_some_iff.mpr ⟨hdigit c hc, rfl⟩)]
    rfl
  have hdrop : ds.dropWhile (fun c => (Text.decimalDigit? c).isSome) = [] :=
    List.dropWhile_eq_nil_iff.mpr hall
  simp [isNumberBody, hlast, hdrop, hne]

/-- A numeral is classified as plain, also if it has a minus sign in front.
-/
theorem Denotes.classify_eq {value : List Char} {n : Int} (h : Denotes value n) :
    classify (String.ofList value) = .ok (.plain (String.ofList value)) := by
  have hequals := h.equals_notMem
  obtain ⟨negative, ds, hform, -⟩ := h
  have hdigits := hform.digits_right
  cases hform with
  | bare =>
      refine classify_plain ?_
      rw [String.toList_ofList]
      -- Without a sign there is a digit in front, so no dash.
      intro hhead
      exact absurd (hdigits.2 _ (List.mem_of_head? hhead)) (by decide)
  | plus => exact classify_plain (by simp)
  | minus =>
      cases ds with
      | nil => exact absurd rfl hdigits.1
      | cons second rest =>
          -- A minus sign could lead a flag. What comes after it is a digit, and no flag has one.
          have hsecond : second.isDigit = true := hdigits.2 _ List.mem_cons_self
          have hdash : second ≠ '-' := by
            rintro rfl
            exact absurd hsecond (by decide)
          have hnone : Flag.ofSpelling? ('-' :: second :: rest) = none :=
            Flag.ofSpelling?_eq_none_of_mem (List.mem_cons_of_mem _ List.mem_cons_self)
              (.inr hsecond)
          have hletter : Flag.ofLetter? second = none :=
            Flag.ofSpelling?_eq_none_of_mem (List.mem_cons_of_mem _ List.mem_cons_self)
              (.inr hsecond)
          obtain ⟨htake, -⟩ := takeWhile_no_equals hequals
          rw [classify_dashed, classifyDashed, String.toList_ofList]
          simp only [htake, hnone, hletter]
          simp [hdash, classifyRest, isNumberBody_of_digits hdigits]

/-! ### Letters -/

/-- The bundle of the last flag of a word, with the text behind it. -/
def Bundle.last (f : Flag) (value : List Char) : Bundle :=
  if f.takesValue then ⟨[], some (f, if value = [] then none else some value)⟩ else ⟨[f], none⟩

/-- The same bundle with letters for a verbose run in front. -/
def Bundle.verbosely (k : Nat) (b : Bundle) : Bundle :=
  { b with flags := List.replicate k .verbose ++ b.flags }

/-- The flag of a word and the text that is attached make a bundle. Only a
flag that takes a value can have one. -/
theorem Bundle.ofWord_last (joined : Bool) (value : List Char)
    (hvalue : f.takesValue = false → value = []) :
    Bundle.ofWord f joined (if value = [] then none else some value)
      = .ok (Bundle.last f value) := by
  by_cases hempty : value = []
  · rw [if_pos hempty, hempty]
    rfl
  · have htakes : f.takesValue = true := by
      cases h : f.takesValue with
      | true => rfl
      | false => exact absurd (hvalue h) hempty
    rw [if_neg hempty, Bundle.ofWord]
    rw [Bundle.attached.eq_def, if_pos htakes]
    simp [Bundle.last, htakes, hempty]

/-- Letters for a verbose run are taken off one by one, and each puts its
flag in front. -/
theorem Bundle.attached_letters {c : Char} {value : List Char}
    (hletter : Flag.ofLetter? c = some f) (hvalue : f.takesValue = false → value = []) (k : Nat) :
    Bundle.attached .verbose true (List.replicate k 'v' ++ c :: value)
      = .ok ((Bundle.last f value).verbosely (k + 1)) := by
  have hverbose : Flag.ofLetter? 'v' = some .verbose := by decide
  induction k with
  | zero =>
      have hlast := Bundle.ofWord_last true value hvalue
      rw [List.replicate_zero, List.nil_append, Bundle.attached]
      simp only [hletter]
      -- Behind the last letter there is its value or nothing.
      cases value with
      | nil => rfl
      | cons d value =>
          have htail : Bundle.attached f true (d :: value) = .ok (Bundle.last f (d :: value)) :=
            hlast
          simp only [htail]
          rfl
  | succ k ih =>
      rw [List.replicate_succ, List.cons_append, Bundle.attached]
      have hne : (List.replicate k 'v' ++ c :: value).isEmpty = false := by simp
      simp only [hverbose, hne, Bool.false_eq_true, if_false, ih]
      rfl

/-- So a word of one dash and letters is a bundle of the last letter, with
verbose runs in front of it. -/
theorem bundle_letters {c : Char} {value : List Char} (k : Nat)
    (hletter : Flag.ofLetter? c = some f) (hdash : c ≠ '-') (hequals : '=' ∉ c :: value)
    (hvalue : f.takesValue = false → value = []) :
    ∃ flag joined attached,
      classify (String.ofList ('-' :: (List.replicate k 'v' ++ c :: value)))
        = .ok (.flag flag joined attached)
      ∧ Bundle.ofWord flag joined attached = .ok ((Bundle.last f value).verbosely k) := by
  have hverbose : Flag.ofLetter? 'v' = some .verbose := by decide
  cases k with
  | zero =>
      exact ⟨f, true, _, classify_letters hdash hletter hequals,
        Bundle.ofWord_last true value hvalue⟩
  | succ k =>
      have hne : List.replicate k 'v' ++ c :: value ≠ [] := by simp
      have hequals' : '=' ∉ 'v' :: (List.replicate k 'v' ++ c :: value) := by
        simpa [List.mem_replicate] using hequals
      have hword := classify_letters (by decide) hverbose hequals'
      rw [if_neg hne] at hword
      exact ⟨.verbose, true, _, hword, Bundle.attached_letters hletter hvalue k⟩

/-- Whether a word is classified as the flags of a bundle. -/
def Bundles (word : List Char) (bundle : Bundle) : Prop :=
  ∃ flag joined attached, classify (String.ofList word) = .ok (.flag flag joined attached)
    ∧ Bundle.ofWord flag joined attached = .ok bundle

/-- A word that only leads with a flag is the bundle of that flag. -/
theorem Leads.bundles {word between : List Char} {k : Nat} (h : Leads word k f between) :
    Bundles word ((Bundle.last f []).verbosely k) := by
  cases h with
  | long hleast =>
      refine ⟨f, false, none, classify_long hleast, ?_⟩
      exact Bundle.ofWord_last false [] fun _ => rfl
  | @letters f c k hletter =>
      obtain ⟨hflag, hdash, hequals⟩ := Flag.ofLetter?_letter hletter
      exact bundle_letters k hflag hdash (by simpa using Ne.symm hequals) fun _ => rfl
  | @letter f c hletter =>
      obtain ⟨hflag, hdash, hequals⟩ := Flag.ofLetter?_letter hletter
      exact bundle_letters 0 hflag hdash (by simpa using Ne.symm hequals) fun _ => rfl

/-- If a value is attached, it is the bundle of the flag with the value. -/
theorem Leads.bundles_attached {word between value : List Char} {k : Nat}
    (h : Leads word k f between) (htakes : f.takesValue = true) (hne : value ≠ [])
    (hequals : '=' ∉ value) :
    Bundles (word ++ between ++ value) ((Bundle.last f value).verbosely k) := by
  have hvalue : f.takesValue = false → value = [] := by simp [htakes]
  cases h with
  | long hleast =>
      refine ⟨f, false, some value, classify_long_attached hleast value, ?_⟩
      have hlast := Bundle.ofWord_last false value hvalue
      rwa [if_neg hne] at hlast
  | @letters f c k hletter =>
      obtain ⟨hflag, hdash, hne'⟩ := Flag.ofLetter?_letter hletter
      have hword : '-' :: (List.replicate k 'v' ++ [c]) ++ [] ++ value
          = '-' :: (List.replicate k 'v' ++ c :: value) := by simp
      rw [hword]
      refine bundle_letters k hflag hdash ?_ hvalue
      simp [hequals, Ne.symm hne']
  | @letter f c hletter =>
      obtain ⟨hflag, hdash, hne'⟩ := Flag.ofLetter?_letter hletter
      refine ⟨f, true, some value, classify_letter_attached hdash hflag hne' value, ?_⟩
      have hlast := Bundle.ofWord_last true value hvalue
      rwa [if_neg hne] at hlast

/-! ### All words -/

/-- Turning on a flag without a value makes its choice. -/
theorem Flag.turnOn_switch {c : Choice} (h : f.switch? = some c) (a : Arguments) :
    a.turnOn f = a.choose c ∧ f.takesValue = false ∧ f ≠ .help := by
  cases f <;> cases h <;> exact ⟨rfl, rfl, by decide⟩

/-- Setting the value of a flag to a numeral makes the choice of its number.
-/
theorem Flag.setValue_number {c : Int → Choice} {value : List Char} {n : Int}
    (h : f.number? = some c) (hvalue : Denotes value n) (a : Arguments) :
    a.setValue f (String.ofList value) = .ok (a.choose (c n)) ∧ f.takesValue = true := by
  unfold Arguments.setValue
  rw [numberOf_of_denotes hvalue]
  cases f <;> cases h <;> exact ⟨rfl, rfl⟩

/-- Whether going through words makes choices, one after the other, and
leaves no word over. If a file was named before, then none of the choices
may name one. -/
def Chooses (ws : List Word) (cs : List Choice) : Prop :=
  ∀ s : Progress, (s.fileNamed = true → ∀ name, Choice.file name ∉ cs) →
    ∃ t, s.through ws = .ok (some t) ∧ t.arguments = cs.foldl Arguments.choose s.arguments
      ∧ t.leftOver = s.leftOver

/-- A verbose run may be chosen several times. -/
theorem foldl_turnOn_replicate (k : Nat) (a : Arguments) :
    (List.replicate k Flag.verbose).foldl Arguments.turnOn a
      = (List.replicate k Choice.verbose).foldl Arguments.choose a := by
  induction k generalizing a with
  | zero => rfl
  | succ k ih => exact ih _

/-- Letters for a verbose run do not ask for help. -/
theorem help_notMem (k : Nat) {fs : List Flag} (h : Flag.help ∉ fs) :
    ¬(List.replicate k Flag.verbose ++ fs).contains .help = true := by
  simp [List.mem_replicate, h]

/-- If a choice names a file, then none was named before. -/
theorem fileNamed_eq_false {s : Progress} {name : String} {cs : List Choice}
    (h : s.fileNamed = true → ∀ other, Choice.file other ∉ .file name :: cs) :
    s.fileNamed = false := by
  cases hnamed : s.fileNamed with
  | false => rfl
  | true => exact absurd List.mem_cons_self (h hnamed name)

namespace Chooses

variable {ws : List Word} {cs : List Choice} {flag : Flag} {joined : Bool}
  {behind : Option (List Char)} {k : Nat}

/-- No words make no choices. -/
theorem nil : Chooses [] [] := fun s _ => ⟨s, rfl, rfl, rfl⟩

/-- The first plain word names the file. -/
theorem file (h : Chooses ws cs) (hone : ∀ other, Choice.file other ∉ cs)
    (hplain : ∀ rest, ws ≠ .separator :: rest) (name : String) :
    Chooses (.plain name :: ws) (.file name :: cs) := by
  intro s hs
  -- So this word is not one that is left over.
  have hfirst := fileNamed_eq_false hs
  obtain ⟨t, hthrough, harguments, hleft⟩ := h (s.takePlain name) fun _ => hone
  refine ⟨t, ?_, ?_, ?_⟩
  · rw [Progress.through, hthrough]
    exact hplain
  · rw [harguments, Progress.takePlain, hfirst]
    rfl
  · rw [hleft, Progress.takePlain, hfirst]
    rfl

/-- So does the word behind a double dash at the end. -/
theorem lastFile (name : String) : Chooses [.separator, .plain name] [.file name] := by
  intro s hs
  have hfirst := fileNamed_eq_false hs
  obtain ⟨t, hthrough, hrest⟩ := nil.file (by simp) (by simp) name s hs
  refine ⟨t, ?_, hrest⟩
  rw [Progress.through, hfirst]
  exact hthrough

/-- A bundle whose last flag takes no value makes the choices of its flags.
-/
theorem switch {c : Choice} (h : Chooses ws cs)
    (hbundle : Bundle.ofWord flag joined behind = .ok ((Bundle.last f []).verbosely k))
    (hc : f.switch? = some c) :
    Chooses (.flag flag joined behind :: ws) (List.replicate k .verbose ++ c :: cs) := by
  intro s hs
  obtain ⟨-, htakes, hhelp⟩ := Flag.turnOn_switch hc s.arguments
  have hlast : (Bundle.last f []).verbosely k = ⟨List.replicate k .verbose ++ [f], none⟩ := by
    simp [Bundle.last, Bundle.verbosely, htakes]
  obtain ⟨t, hthrough, harguments, hleft⟩ := h (s.turnOn (List.replicate k .verbose ++ [f]))
    fun hnamed name hmem => hs hnamed name (by simp [hmem])
  refine ⟨t, ?_, ?_, hleft⟩
  · rw [Progress.through, hbundle, hlast]
    show (if _ then _ else _) = _
    rw [if_neg (help_notMem k (by simpa using Ne.symm hhelp)), hthrough]
  · rw [harguments, Progress.turnOn]
    simp only [List.foldl_append, List.foldl_cons, List.foldl_nil, foldl_turnOn_replicate,
      (Flag.turnOn_switch hc _).1]

variable {c : Int → Choice} {n : Int} {value : List Char}

/-- What comes after a value is gone through with the number. -/
theorem number (h : Chooses ws cs) (hc : f.number? = some c) (hvalue : Denotes value n) (k : Nat)
    (s : Progress)
    (hs : s.fileNamed = true → ∀ name, Choice.file name ∉ List.replicate k .verbose ++ c n :: cs) :
    ∃ t, ((s.turnOn (List.replicate k .verbose ++ [])).setValue f (String.ofList value)
          >>= fun s' => s'.through ws) = .ok (some t)
      ∧ t.arguments
        = (List.replicate k Choice.verbose ++ c n :: cs).foldl Arguments.choose s.arguments
      ∧ t.leftOver = s.leftOver := by
  have hset := (Flag.setValue_number hc hvalue
    ((List.replicate k Flag.verbose).foldl Arguments.turnOn s.arguments)).1
  obtain ⟨t, hthrough, harguments, hleft⟩ := h
    { s with arguments := ((List.replicate k Flag.verbose).foldl Arguments.turnOn
        s.arguments).choose (c n) }
    fun hnamed name hmem => hs hnamed name (by simp [hmem])
  refine ⟨t, ?_, ?_, hleft⟩
  · rw [List.append_nil, Progress.setValue, Progress.turnOn, hset]
    exact hthrough
  · rw [harguments, List.foldl_append, List.foldl_cons, foldl_turnOn_replicate]

/-- A bundle with a numeral attached makes the choice of the number. -/
theorem attached (h : Chooses ws cs)
    (hbundle : Bundle.ofWord flag joined behind = .ok ((Bundle.last f value).verbosely k))
    (hne : value ≠ []) (hc : f.number? = some c) (hvalue : Denotes value n) :
    Chooses (.flag flag joined behind :: ws) (List.replicate k .verbose ++ c n :: cs) := by
  intro s hs
  have htakes := (Flag.setValue_number hc hvalue s.arguments).2
  have hlast : (Bundle.last f value).verbosely k
      = ⟨List.replicate k .verbose ++ [], some (f, some value)⟩ := by
    simp [Bundle.last, Bundle.verbosely, htakes, hne]
  obtain ⟨t, hthrough, hrest⟩ := number h hc hvalue k s hs
  refine ⟨t, ?_, hrest⟩
  rw [Progress.through, hbundle, hlast]
  show (if _ then _ else _) = _
  rw [if_neg (help_notMem k (by simp))]
  exact hthrough

/-- A bundle that takes the next word makes the choice of that number. -/
theorem next (h : Chooses ws cs)
    (hbundle : Bundle.ofWord flag joined behind = .ok ((Bundle.last f []).verbosely k))
    (hc : f.number? = some c) (hvalue : Denotes value n) :
    Chooses (.flag flag joined behind :: .plain (String.ofList value) :: ws)
      (List.replicate k .verbose ++ c n :: cs) := by
  intro s hs
  have htakes := (Flag.setValue_number hc hvalue s.arguments).2
  have hlast : (Bundle.last f []).verbosely k
      = ⟨List.replicate k .verbose ++ [], some (f, none)⟩ := by
    simp [Bundle.last, Bundle.verbosely, htakes]
  obtain ⟨t, hthrough, hrest⟩ := number h hc hvalue k s hs
  refine ⟨t, ?_, hrest⟩
  rw [Progress.through, hbundle, hlast]
  show (if _ then _ else _) = _
  rw [if_neg (help_notMem k (by simp))]
  exact hthrough

end Chooses

/-- A word that is classified comes in front of the others. It is not the
double dash, which is too short for any flag. -/
theorem classifyAll_cons {text : String} {word : Word} {words : List String} {ws : List Word}
    (hword : classify text = .ok word) (hws : classifyAll words = .ok ws) :
    classifyAll (text :: words) = .ok (word :: ws) := by
  have hdashes : text ≠ "--" := by
    rintro rfl
    have herror : ∃ e, classify "--" = .error e := ⟨_, rfl⟩
    obtain ⟨e, he⟩ := herror
    cases he.symm.trans hword
  rw [classifyAll, if_neg hdashes, hword, hws]
  rfl

variable {cs : List Choice} {words : List String}

/-- Words that spell choices are classified, and going through them makes
the choices. They begin with a double dash only if the rest names the file.
-/
theorem Spells.chooses (h : Spells cs words) :
    ∃ ws, classifyAll words = .ok ws ∧ Chooses ws cs
      ∧ ((∀ name, Choice.file name ∉ cs) → ∀ rest, ws ≠ .separator :: rest) := by
  induction h with
  | done => exact ⟨[], rfl, .nil, fun _ rest hrest => by cases hrest⟩
  | @file name cs words hdash hone hrest ih =>
      -- The words after the file do not begin with a double dash, which would go with it.
      obtain ⟨ws, hws, hchoose, hplain⟩ := ih
      refine ⟨_, classifyAll_cons (classify_plain hdash) hws,
        hchoose.file hone (hplain hone) name, ?_⟩
      exact fun _ rest hrest => by cases hrest
  | lastFile name =>
      refine ⟨[.separator, .plain name], rfl, .lastFile name, fun hnone => ?_⟩
      exact absurd List.mem_cons_self (hnone name)
  | @switch word between k f c cs words hword hc hrest ih =>
      obtain ⟨ws, hws, hchoose, -⟩ := ih
      obtain ⟨flag, joined, behind, hclassify, hbundle⟩ := hword.bundles
      refine ⟨_, classifyAll_cons hclassify hws, hchoose.switch hbundle hc, ?_⟩
      exact fun _ rest hrest => by cases hrest
  | @next word between value k f c n cs words hword hc hvalue hrest ih =>
      obtain ⟨ws, hws, hchoose, -⟩ := ih
      obtain ⟨flag, joined, behind, hclassify, hbundle⟩ := hword.bundles
      refine ⟨_, classifyAll_cons hclassify (classifyAll_cons hvalue.classify_eq hws),
        hchoose.next hbundle hc hvalue, ?_⟩
      exact fun _ rest hrest => by cases hrest
  | @attached word between value k f c n cs words hword hc hvalue hrest ih =>
      obtain ⟨ws, hws, hchoose, -⟩ := ih
      -- A numeral is not empty, so that something is attached.
      have htakes := (Flag.setValue_number hc hvalue {}).2
      have hne : value ≠ [] := by
        obtain ⟨d, hd, -⟩ := hvalue.exists_digit
        exact List.ne_nil_of_mem hd
      obtain ⟨flag, joined, behind, hclassify, hbundle⟩ :=
        hword.bundles_attached htakes hne hvalue.equals_notMem
      refine ⟨_, classifyAll_cons hclassify hws, hchoose.attached hbundle hne hc hvalue, ?_⟩
      exact fun _ rest hrest => by cases hrest

/-- Words that spell choices are understood as the arguments of the choices. -/
theorem Spells.understood (h : Spells cs words) :
    Request.ofWords words = .ok (.work (argumentsOf cs)) := by
  obtain ⟨ws, hws, hchoose, -⟩ := h.chooses
  obtain ⟨t, hthrough, harguments, hleft⟩ := hchoose {} fun hnamed => by cases hnamed
  have hchosen : t.arguments = argumentsOf cs := harguments.trans (foldl_choose [] cs)
  rw [Request.ofWords, hws]
  show (Progress.through {} ws >>= _) = _
  rw [hthrough]
  show (if t.leftOver.isEmpty then _ else _) = _
  rw [hleft, hchosen]
  rfl

end CommandLine

end AccumulatorMachine
