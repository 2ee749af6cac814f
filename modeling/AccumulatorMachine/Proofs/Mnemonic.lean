import AccumulatorMachine.Instruction
import AccumulatorMachine.Text.Lowercase

/-!
# `AccumulatorMachine.Proofs.Mnemonic`: which spellings a mnemonic has

A mnemonic is looked up by the lower-case form of a column, and the
lower-casing is that of the whole character standard. Still no text but
the mnemonic in some case of its letters of ASCII is taken for it
(`lowercase_eq_mnemonic_iff`).

The reason is in the table of the letters. Small letters of ASCII come
from letters of ASCII, with two exceptions: the Kelvin sign becomes a
`k`, and the dotted capital I begins with an `i`. `Plain` are the other
ones; every mnemonic is made of them. A sigma is not of ASCII in either
form, so the rule that looks around it does not matter.
-/

set_option autoImplicit false

namespace AccumulatorMachine

namespace Text

variable {c x : Char} {text w : List Char}

/-- The small letters of ASCII that are the lower-case form of letters
of ASCII alone. -/
def Plain (x : Char) : Prop := (97 ≤ x.toNat ∧ x.toNat ≤ 122) ∧ x ≠ 'i' ∧ x ≠ 'k'

instance (x : Char) : Decidable (Plain x) := inferInstanceAs (Decidable (_ ∧ _))

/-! ### The table -/

/-- The first row of the table is about the capital letters of ASCII. -/
theorem lowerShifts_eq : lowerShifts = ⟨65, 90, 1, 32⟩ :: lowerShifts.tail := rfl

/-- No other row is about ASCII. -/
theorem first_of_mem_tail : ∀ s ∈ lowerShifts.tail, 128 ≤ s.first := by
  decide +kernel

/-- Letters beyond ASCII stay beyond it, but for the Kelvin sign. -/
theorem shift_of_mem_tail :
    ∀ s ∈ lowerShifts.tail, 128 ≤ s.first + s.shift
      ∨ s.first = s.last ∧ s.first + s.shift = 'k'.toNat := by
  decide +kernel

/-- Whatever has a place in a row lies between its ends. -/
theorem CaseShift.between_of_applies {s : CaseShift} {code : Nat} (h : s.applies code = true) :
    s.first ≤ code ∧ code ≤ s.last := by
  simp only [applies, Bool.and_eq_true, decide_eq_true_eq] at h
  exact h.1

/-! ### Single characters -/

/-- Only the letters A to Z are capital letters of ASCII. -/
theorem toLower_eq_self (h : ¬(65 ≤ c.toNat ∧ c.toNat ≤ 90)) : c.toLower = c := by
  unfold Char.toLower
  exact dif_neg h

/-- The small letters of ASCII follow the capital ones at a distance. -/
theorem ofNat_eq_toLower (h : 65 ≤ c.toNat ∧ c.toNat ≤ 90) :
    Char.ofNat (c.toNat + 32) = c.toLower := by
  have hall : ∀ k < 26, Char.ofNat (65 + k + 32) = (Char.ofNat (65 + k)).toLower := by decide
  have hk := hall (c.toNat - 65) (by omega)
  rwa [show 65 + (c.toNat - 65) = c.toNat by omega, Char.ofNat_toNat] at hk

/-- A code point that is no character gives the character zero. -/
theorem toNat_ofNat (code : Nat) :
    (Char.ofNat code).toNat = code ∨ (Char.ofNat code).toNat = 0 := by
  unfold Char.ofNat
  by_cases h : code.isValidChar
  · rw [dif_pos h]
    exact .inl rfl
  · rw [dif_neg h]
    exact .inr rfl

/-- On ASCII the lower-case form is that of the letters A to Z. -/
theorem lowerChar_of_ascii (h : c.toNat < 128) : lowerChar c = [c.toLower] := by
  have hdotted : c ≠ '\u0130' := by
    rintro rfl
    exact absurd h (by decide)
  have htail : lowerShifts.tail.find? (fun s => s.applies c.toNat) = none := by
    rw [List.find?_eq_none]
    intro s hs happlies
    -- All rows but the first begin beyond ASCII.
    have hfirst := first_of_mem_tail s hs
    have hcode := (CaseShift.between_of_applies happlies).1
    omega
  unfold lowerChar
  rw [if_neg hdotted, lowerShifts_eq]
  by_cases hcap : 65 ≤ c.toNat ∧ c.toNat ≤ 90
  · have happlies : CaseShift.applies ⟨65, 90, 1, 32⟩ c.toNat = true := by
      simp [CaseShift.applies, hcap, Nat.mod_one]
    rw [List.find?_cons, happlies, ← ofNat_eq_toLower hcap]
    rfl
  · have happlies : CaseShift.applies ⟨65, 90, 1, 32⟩ c.toNat = false := by
      rw [← Bool.not_eq_true]
      intro happlies
      exact hcap (CaseShift.between_of_applies happlies)
    rw [List.find?_cons, happlies, htail, toLower_eq_self hcap]

/-- Beyond ASCII the lower-case form does not begin with a plain
letter. -/
theorem exists_lowerChar_of_not_ascii (h : 128 ≤ c.toNat) :
    ∃ x xs, lowerChar c = x :: xs ∧ ¬Plain x := by
  unfold lowerChar
  split
  · exact ⟨'i', ['\u0307'], rfl, by decide⟩
  · split
    · rename_i s hs
      have hmem := List.mem_of_find?_eq_some hs
      have happlies : s.applies c.toNat = true := by
        simpa using List.find?_some hs
      have hbetween := CaseShift.between_of_applies happlies
      refine ⟨_, [], rfl, ?_⟩
      rintro ⟨hbounds, -, hk⟩
      have hcode := toNat_ofNat (c.toNat + s.shift).toNat
      rw [lowerShifts_eq] at hmem
      rcases List.mem_cons.mp hmem with rfl | hmem
      · -- The first row is about ASCII alone.
        exact absurd hbetween.2 (by show ¬c.toNat ≤ 90; omega)
      · rcases shift_of_mem_tail s hmem with hshift | ⟨hone, hshift⟩
        · omega
        · -- The Kelvin sign becomes a `k`, which is not plain.
          rw [show c.toNat = s.first by omega, hshift] at hk
          exact hk rfl
    · refine ⟨c, [], rfl, ?_⟩
      rintro ⟨hbounds, -⟩
      omega

/-! ### Texts -/

/-- A text of plain letters is the lower-case form of the texts that
differ from it in the case of letters of ASCII. -/
theorem lowercaseAfter_eq_iff (before : List Char) (hw : ∀ x ∈ w, Plain x) :
    lowercaseAfter before text = w ↔ text.map Char.toLower = w := by
  induction text generalizing before w with
  | nil => rfl
  | cons c rest ih =>
      by_cases hascii : c.toNat < 128
      · -- The letter whose form depends on its place is beyond ASCII, so what stands before does
        -- not matter here.
        have hsigma : c ≠ '\u03A3' := by
          rintro rfl
          exact absurd hascii (by decide)
        rw [lowercaseAfter, if_neg hsigma, lowerChar_of_ascii hascii, List.map_cons]
        cases w with
        | nil => simp
        | cons x w =>
            have hrest := ih (c :: before) fun y hy => hw y (List.mem_cons_of_mem x hy)
            simp [hrest]
      · -- Such a character is in no spelling on either side.
        have hbeyond : 128 ≤ c.toNat := by omega
        obtain ⟨x, xs, hx, hplain⟩ : ∃ x xs,
            (if c = '\u03A3' then [lowerSigma before rest] else lowerChar c) = x :: xs
              ∧ ¬Plain x := by
          split
          · refine ⟨_, [], rfl, ?_⟩
            unfold lowerSigma
            split
            · decide
            · decide
          · exact exists_lowerChar_of_not_ascii hbeyond
        have hleft : lowercaseAfter before (c :: rest) ≠ w := by
          rintro rfl
          rw [lowercaseAfter, hx] at hw
          exact hplain (hw x (by simp))
        have hright : (c :: rest).map Char.toLower ≠ w := by
          rintro rfl
          rw [List.map_cons, toLower_eq_self (by omega)] at hw
          have hbounds := (hw c List.mem_cons_self).1
          omega
        exact iff_of_false hleft hright

end Text

namespace Opcode

open Text

/-- Whether a text is the mnemonic of an opcode, in any case of the
letters of ASCII. -/
def SpelledBy (o : Opcode) (text : List Char) : Prop :=
  text.map Char.toLower = o.mnemonic.toList

instance (o : Opcode) (text : List Char) : Decidable (o.SpelledBy text) :=
  inferInstanceAs (Decidable (_ = _))

/-- Mnemonics are made of plain letters. -/
theorem plain_mnemonic (o : Opcode) : ∀ x ∈ o.mnemonic.toList, Plain x := by
  have hall : o.mnemonic.toList.all (fun x => decide (Plain x)) = true := by
    cases o with
    | acc => decide
    | jmp => decide
    | nop => decide
  simpa using hall

/-- The lower-casing of the character standard adds no spelling. -/
theorem lowercase_eq_mnemonic_iff {o : Opcode} {text : List Char} :
    lowercase text = o.mnemonic.toList ↔ o.SpelledBy text :=
  lowercaseAfter_eq_iff [] o.plain_mnemonic

/-- An opcode is found by its mnemonic. -/
theorem ofMnemonic?_eq_some_iff {o : Opcode} {text : String} :
    ofMnemonic? text = some o ↔ o.mnemonic = text := by
  constructor
  · intro h
    unfold ofMnemonic? at h
    simpa using List.find?_some h
  · rintro rfl
    cases o with
    | acc => rfl
    | jmp => rfl
    | nop => rfl

/-- So an opcode is found by the lower-case form of its spellings. -/
theorem ofMnemonic?_lowercase_iff {o : Opcode} {text : List Char} :
    ofMnemonic? (String.ofList (lowercase text)) = some o ↔ o.SpelledBy text := by
  rw [ofMnemonic?_eq_some_iff, ← lowercase_eq_mnemonic_iff]
  constructor
  · intro h
    rw [h, String.toList_ofList]
  · intro h
    rw [h, String.ofList_toList]

end Opcode

end AccumulatorMachine
