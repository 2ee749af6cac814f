import AccumulatorMachine.Numeral

/-!
# `AccumulatorMachine.Proofs.Numeral`: numerals and the integers that they denote

A numeral is a sign or none, and then at least one digit of ASCII.
`Form` is that grammar, and `denoted` the integer of a numeral: its
digits in base ten, with the sign in front. Neither speaks of how a
numeral is scanned.

* `scan_of_form` and `exists_form_of_scan`: a text is scanned exactly if
  it is a numeral.
* `value_scanned`: what was scanned has the value that is denoted, or is
  refused for the number of its digits.
* `fits_iff`: an integer can be written exactly if it has no more digits
  than the limit. So the limit is the same in both directions, and what
  is written is a numeral of the integer (`form_signedText`,
  `denoted_toDigits`).
-/

set_option autoImplicit false

namespace AccumulatorMachine

namespace Text

/-- A digit of ASCII has its distance from zero as its value. -/
theorem asciiDigit?_eq_some_iff {c : Char} {d : Nat} :
    asciiDigit? c = some d ↔ c.isDigit = true ∧ c.toNat - 48 = d := by
  have hzero : '0'.toNat = 48 := rfl
  have hnine : '9'.toNat = 57 := rfl
  unfold asciiDigit? digitFrom
  rw [Char.isDigit_iff_toNat, hzero, hnine]
  split
  · simp; omega
  · simp; omega

end Text

namespace Numeral

open Text

/-! ### The grammar -/

/-- One digit of ASCII or more. -/
def Digits (text : List Char) : Prop := text ≠ [] ∧ ∀ c ∈ text, c.isDigit = true

instance (text : List Char) : Decidable (Digits text) :=
  decidable_of_iff (text ≠ [] ∧ text.all Char.isDigit = true) (by simp [Digits])

/-- The numerals: a sign or none, and then digits. It is told whether
the sign is a minus sign. -/
inductive Form : List Char → Bool → List Char → Prop
  | bare {ds : List Char} (h : Digits ds) : Form ds false ds
  | plus {ds : List Char} (h : Digits ds) : Form ('+' :: ds) false ds
  | minus {ds : List Char} (h : Digits ds) : Form ('-' :: ds) true ds

/-- The integer of a sign and digits. -/
def denoted (negative : Bool) (ds : List Char) : Int :=
  if negative then -(Nat.ofDigitChars 10 ds 0 : Int) else Nat.ofDigitChars 10 ds 0

/-- What is told of a numeral when it is scanned. -/
def scanned (negative : Bool) (ds : List Char) : Scanned := ⟨negative, ds.map (·.toNat - 48)⟩

variable {text ds : List Char} {negative : Bool}

/-- Behind the sign, if there is one, there are digits and nothing else. -/
theorem Form.digits_right (h : Form text negative ds) : Digits ds := by
  cases h with
  | bare h => exact h
  | plus h => exact h
  | minus h => exact h

/-- A sign is no digit, so nothing is taken off from digits. -/
theorem takeSign_of_digits (h : Digits ds) : takeSign ds = (false, ds) := by
  obtain ⟨hne, hdigit⟩ := h
  cases ds with
  | nil => exact absurd rfl hne
  | cons c rest =>
      have hc : c.isDigit = true := hdigit c List.mem_cons_self
      unfold takeSign
      split
      · rename_i heq
        cases heq
        exact absurd hc (by decide)
      · rename_i heq
        cases heq
        exact absurd hc (by decide)
      · rfl

/-- The digits of a numeral are what is left when the sign is taken
off. -/
theorem form_iff : Form text negative ds ↔ takeSign text = (negative, ds) ∧ Digits ds := by
  constructor
  · intro h
    refine ⟨?_, h.digits_right⟩
    cases h with
    | bare h => exact takeSign_of_digits h
    | plus h => rfl
    | minus h => rfl
  · rintro ⟨htake, h⟩
    unfold takeSign at htake
    split at htake
    · cases htake
      exact .minus h
    · cases htake
      exact .plus h
    · cases htake
      exact .bare h

/-! ### Scanning -/

/-- Digits are scanned one by one. -/
theorem scanDigits_of_digits (h : Digits ds) :
    scanDigits asciiDigit? ds = some (ds.map (·.toNat - 48)) := by
  obtain ⟨hne, hdigit⟩ := h
  induction ds with
  | nil => exact absurd rfl hne
  | cons c rest ih =>
      have hc : asciiDigit? c = some (c.toNat - 48) :=
        asciiDigit?_eq_some_iff.mpr ⟨hdigit c List.mem_cons_self, rfl⟩
      cases rest with
      | nil => simp [scanDigits, hc]
      | cons d rest =>
          have hrest := ih (by simp) fun x hx => hdigit x (List.mem_cons_of_mem c hx)
          simp [scanDigits, hc, hrest]

/-- Only digits are scanned. -/
theorem digits_of_scanDigits {values : List Nat}
    (h : scanDigits asciiDigit? text = some values) : Digits text := by
  induction text generalizing values with
  | nil => cases h
  | cons c rest ih =>
      refine ⟨by simp, ?_⟩
      -- The last digit ends the scan, any other one goes on to the next.
      cases rest with
      | nil =>
          obtain ⟨d, hd, -⟩ := Option.map_eq_some_iff.mp h
          intro x hx
          rw [List.mem_singleton] at hx
          rw [hx]
          exact (asciiDigit?_eq_some_iff.mp hd).1
      | cons d rest =>
          simp only [scanDigits, Option.bind_eq_bind, Option.bind_eq_some_iff] at h
          obtain ⟨v, hv, vs, hvs, -⟩ := h
          intro x hx
          rcases List.mem_cons.mp hx with rfl | hx
          · exact (asciiDigit?_eq_some_iff.mp hv).1
          · exact (ih hvs).2 x hx

/-- Every numeral is scanned. -/
theorem scan_of_form (h : Form text negative ds) : scan text = some (scanned negative ds) := by
  obtain ⟨htake, hdigits⟩ := form_iff.mp h
  simp [scan, htake, scanDigits_of_digits hdigits, scanned]

/-- Only numerals are scanned. -/
theorem exists_form_of_scan {s : Scanned} (h : scan text = some s) :
    ∃ negative ds, Form text negative ds ∧ s = scanned negative ds := by
  obtain ⟨values, hvalues, -⟩ := Option.map_eq_some_iff.mp h
  have hform : Form text (takeSign text).1 (takeSign text).2 :=
    form_iff.mpr ⟨rfl, digits_of_scanDigits hvalues⟩
  exact ⟨_, _, hform, Option.some.inj (h.symm.trans (scan_of_form hform))⟩

/-- A text that is no numeral is not scanned. -/
theorem scan_eq_none (h : ∀ negative ds, ¬Form text negative ds) : scan text = none := by
  cases hs : scan text with
  | none => rfl
  | some s =>
      obtain ⟨negative, ds, hform, -⟩ := exists_form_of_scan hs
      exact absurd hform (h negative ds)

/-! ### Values -/

/-- The value of a row of digits is their number in base ten. -/
theorem valueOf_map (ds : List Char) :
    valueOf (ds.map (·.toNat - 48)) = Nat.ofDigitChars 10 ds 0 := by
  rw [valueOf, List.foldl_map, Nat.ofDigitChars_eq_foldl]
  rfl

/-- What was scanned has the value that the numeral denotes, unless it
has more digits than the limit. -/
theorem value_scanned (negative : Bool) (ds : List Char) :
    (scanned negative ds).value
      = if ds.length ≤ digitLimit then .ok (denoted negative ds)
        else .error (.tooManyDigits ds.length) := by
  simp only [scanned, Scanned.value, List.length_map, valueOf_map, denoted]

/-! ### Writing -/

/-- Whether an integer has no more digits than a numeral may have. -/
def Short (n : Int) : Prop := (Nat.toDigits 10 n.natAbs).length ≤ digitLimit

instance (n : Int) : Decidable (Short n) := inferInstanceAs (Decidable (_ ≤ _))

/-- An integer can be written exactly if it has no more digits than a
numeral may have. -/
theorem fits_iff {n : Int} : fits n = true ↔ Short n := by
  have hlimit : 0 < digitLimit := by decide
  unfold fits Short
  rw [decide_eq_true_iff, Nat.pow_eq]
  exact (Nat.length_toDigits_le_iff (by decide) hlimit).symm

/-- The first number that has more digits than a numeral may have. -/
def bound : Nat := Nat.pow 10 digitLimit

/-- The numbers that can be written are those below the bound. -/
theorem short_natCast_iff {n : Nat} : Short n ↔ n < bound := by
  rw [← fits_iff, fits, decide_eq_true_iff, Int.natAbs_natCast, bound]

/-- The first integer that is too long is not `0`. -/
theorem bound_pos : 0 < bound := Nat.pow_pos (by decide)

/-- The sign and the digits of an integer. -/
def signedText (n : Int) : List Char :=
  (if n < 0 then '-' else '+') :: Nat.toDigits 10 n.natAbs

/-- An integer that is not too long is written as its sign and digits. -/
theorem signed_of_short {n : Int} (h : Short n) :
    signed n = .ok (String.ofList (signedText n)) := by
  simp only [signed, fits_iff.mpr h, if_true, signedText, digits, String.ofList_cons]
  split
  · rfl
  · rfl

/-- An integer that is too long is not written. -/
theorem signed_of_not_short {n : Int} (h : ¬Short n) : signed n = .error .tooLarge := by
  rw [signed_eq_error_iff, ← Bool.not_eq_true, fits_iff]
  exact h

/-- An integer is written with digits of ASCII. -/
theorem digits_toDigits (n : Nat) : Digits (Nat.toDigits 10 n) :=
  ⟨Nat.toDigits_ne_nil, fun _ hc => Nat.isDigit_of_mem_toDigits (by decide) (by decide) hc⟩

/-- What is written is a numeral. -/
theorem form_signedText (n : Int) :
    Form (signedText n) (decide (n < 0)) (Nat.toDigits 10 n.natAbs) := by
  unfold signedText
  split
  · rename_i h
    rw [decide_eq_true h]
    exact .minus (digits_toDigits _)
  · rename_i h
    rw [decide_eq_false h]
    exact .plus (digits_toDigits _)

/-- What is written denotes the integer. -/
theorem denoted_toDigits (n : Int) :
    denoted (decide (n < 0)) (Nat.toDigits 10 n.natAbs) = n := by
  simp only [denoted, Nat.ofDigitChars_ten_toDigits, decide_eq_true_eq]
  split
  · omega
  · omega

end Numeral

end AccumulatorMachine
