import Mathlib.Data.List.Basic
import AccumulatorMachine.Listing.Reading
import AccumulatorMachine.Proofs.Column
import AccumulatorMachine.Proofs.Mnemonic
import AccumulatorMachine.Proofs.Numeral

/-!
# `AccumulatorMachine.Proofs.LineGrammar`: the lines that give an instruction

`i.SpelledBy line` is the grammar of a line: a mnemonic in any case of
its letters, blanks, a numeral that is not too long, and blanks around
it or none. `Refusal line number e` are the errors of all other lines.
There are four of them, and each is for lines that none of the ones
before it is for: the number of columns, the second column, the first
column, the number of digits.

A line is one or the other (`exists_spelledBy_or_refusal`), and is read
as such (`readLine_of_spelledBy`, `readLine_of_refusal`). Since it is
read in one way, both are characterizations (`readLine_grammar`).

An error that names its line is told only if the number of the line can
be written; `ListingError.written` is what is told in its place.
-/

set_option autoImplicit false

namespace AccumulatorMachine

open Text

/-! ### The grammar -/

/-- The lines that spell an instruction: blanks or none, the mnemonic in
any case of its letters, blanks, a numeral of at most `digitLimit`
digits, and blanks or none. The numeral denotes the argument. -/
inductive Instruction.SpelledBy : Instruction → List Char → Prop
  | columns {w₁ m w₂ n w₃ ds : List Char} {opcode : Opcode} {negative : Bool}
      (before : Blanks w₁) (mnemonic : opcode.SpelledBy m) (between : Blanks w₂) (apart : w₂ ≠ [])
      (numeral : Numeral.Form n negative ds) (short : ds.length ≤ Numeral.digitLimit)
      (after : Blanks w₃) :
      SpelledBy ⟨opcode, Numeral.denoted negative ds⟩ (w₁ ++ m ++ w₂ ++ n ++ w₃)

/-- The lines that would spell an instruction if their numeral had fewer
digits; it is told how many it has. -/
inductive Overlong (line : List Char) : Nat → Prop
  | digits {m a ds : List Char} {negative : Bool} {o : Opcode} (cut : Cut line [m, a])
      (numeral : Numeral.Form a negative ds) (mnemonic : lowercase m = o.mnemonic.toList)
      (long : Numeral.digitLimit < ds.length) : Overlong line ds.length

/-- The errors of the lines that spell no instruction. -/
inductive Refusal (line : List Char) (number : Int) : ListingError → Prop
  | columns {cs : List (List Char)} (cut : Cut line cs) (count : cs.length ≠ 2) :
      Refusal line number (.line ⟨.columns (strip line), number, line⟩)
  | argument {m a : List Char} (cut : Cut line [m, a])
      (numeral : ∀ negative ds, ¬Numeral.Form a negative ds) :
      Refusal line number (.line ⟨.argument a, number, line⟩)
  | mnemonic {m a ds : List Char} {negative : Bool} (cut : Cut line [m, a])
      (numeral : Numeral.Form a negative ds)
      (mnemonic : ∀ o : Opcode, lowercase m ≠ o.mnemonic.toList) :
      Refusal line number (.line ⟨.mnemonic (lowercase m), number, line⟩)
  | digits {count : Nat} (overlong : Overlong line count) :
      Refusal line number (.numeral (.tooManyDigits count))

/-- What is told of an error: one whose line has too long a number
cannot be told. -/
def ListingError.written : ListingError → ListingError
  | .line e => if Numeral.fits e.number then .line e else .numeral .tooLarge
  | .numeral e => .numeral e

/-- An error is raised as what can be told of it. -/
theorem LineError.raise_eq {α : Type} (e : LineError) :
    (e.raise : Except ListingError α) = .error (ListingError.line e).written := by
  by_cases h : Numeral.fits e.number = true
  · simp [raise, ListingError.written, h]
  · simp [raise, ListingError.written, h]

variable {line m a ds : List Char} {number : Int} {e : ListingError} {i : Instruction}
  {o : Opcode} {negative : Bool}

/-! ### Columns of a line that spells an instruction -/

/-- The characters of a mnemonic are letters, and lowering a character to
one shows that it was a letter. -/
theorem graphic_of_plain {c : Char} (h : Plain c.toLower) : Graphic c := by
  unfold Graphic
  by_cases hcap : 65 ≤ c.toNat ∧ c.toNat ≤ 90
  · omega
  · rw [toLower_eq_self hcap] at h
    have hbounds := h.1
    omega

/-- The letters of a mnemonic are visible, in any case. -/
theorem Opcode.SpelledBy.graphic (h : o.SpelledBy m) : ∀ c ∈ m, Graphic c := by
  intro c hc
  have hlower : c.toLower ∈ o.mnemonic.toList := by
    rw [← h]
    exact List.mem_map_of_mem hc
  exact graphic_of_plain (o.plain_mnemonic c.toLower hlower)

/-- The sign and the digits of a numeral are visible. -/
theorem Numeral.Form.graphic (h : Numeral.Form a negative ds) : ∀ c ∈ a, Graphic c := by
  have hdigits : ∀ c ∈ ds, Graphic c := by
    intro c hc
    have hdigit := Char.isDigit_iff_toNat.mp (h.digits_right.2 c hc)
    have hzero : '0'.toNat = 48 := rfl
    have hnine : '9'.toNat = 57 := rfl
    unfold Graphic
    omega
  intro c hc
  cases h with
  | bare _ => exact hdigits c hc
  | plus _ =>
      rcases List.mem_cons.mp hc with rfl | hc
      · exact ⟨by decide, by decide⟩
      · exact hdigits c hc
  | minus _ =>
      rcases List.mem_cons.mp hc with rfl | hc
      · exact ⟨by decide, by decide⟩
      · exact hdigits c hc

/-- So a mnemonic is a column: not empty, and without blanks. -/
theorem Opcode.SpelledBy.solid (h : o.SpelledBy m) : Solid m := by
  refine ⟨?_, fun c hc => (h.graphic c hc).isBlank_eq_false⟩
  rintro rfl
  cases o with
  | acc => cases h
  | jmp => cases h
  | nop => cases h

/-- So is a numeral. It has a digit, so it is not empty either. -/
theorem Numeral.Form.solid (h : Numeral.Form a negative ds) : Solid a := by
  refine ⟨?_, fun c hc => (h.graphic c hc).isBlank_eq_false⟩
  rintro rfl
  cases h with
  | bare h => exact h.1 rfl

/-- A line spells an instruction exactly if its two columns do. -/
theorem Instruction.spelledBy_iff :
    i.SpelledBy line ↔ ∃ m a negative ds, Cut line [m, a] ∧ i.opcode.SpelledBy m
      ∧ Numeral.Form a negative ds ∧ ds.length ≤ Numeral.digitLimit
      ∧ i.argument = Numeral.denoted negative ds := by
  constructor
  · rintro ⟨before, mnemonic, between, apart, numeral, short, after⟩
    refine ⟨_, _, _, _, cut_pair_iff.mpr ⟨mnemonic.solid, numeral.solid, ?_⟩, mnemonic, numeral,
      short, rfl⟩
    exact ⟨_, _, _, before, between, apart, after, rfl⟩
  · rintro ⟨m, a, negative, ds, hcut, mnemonic, numeral, short, hargument⟩
    obtain ⟨-, -, w₁, w₂, w₃, before, between, apart, after, rfl⟩ := cut_pair_iff.mp hcut
    obtain ⟨opcode, argument⟩ := i
    cases hargument
    exact .columns before mnemonic between apart numeral short after

/-! ### Reading -/

/-- What is read of two columns, the second of which is a numeral and
the first a mnemonic. -/
theorem readColumns_of_cut (hcut : Cut line [m, a]) (ha : Numeral.Form a negative ds)
    (hm : o.SpelledBy m) : readColumns line = .ok (o, Numeral.scanned negative ds) := by
  simp [readColumns, hcut.columns_eq, Numeral.scan_of_form ha,
    Opcode.ofMnemonic?_lowercase_iff.mpr hm]

/-- A line that spells an instruction is read as that instruction,
whatever its number. -/
theorem readLine_of_spelledBy (h : i.SpelledBy line) (number : Int) :
    readLine line number = .ok i := by
  obtain ⟨m, a, negative, ds, hcut, mnemonic, numeral, short, hargument⟩ :=
    Instruction.spelledBy_iff.mp h
  rw [readLine, readColumns_of_cut hcut numeral mnemonic]
  simp [Numeral.value_scanned, short, ← hargument]

/-- A line that spells no instruction is refused with its error. -/
theorem readLine_of_refusal (h : Refusal line number e) :
    readLine line number = .error e.written := by
  cases h with
  | @columns cs cut count =>
      have hfault : readColumns line = .error (.columns (strip line)) := by
        unfold readColumns
        rw [cut.columns_eq]
        split
        · exact absurd rfl count
        · rfl
      rw [readLine, hfault]
      exact LineError.raise_eq _
  | @argument m a cut numeral =>
      have hfault : readColumns line = .error (.argument a) := by
        simp [readColumns, cut.columns_eq, Numeral.scan_eq_none numeral]
      rw [readLine, hfault]
      exact LineError.raise_eq _
  | @mnemonic m a ds negative cut numeral mnemonic =>
      -- A mnemonic that is found would be a spelling of its opcode.
      have hnone : Opcode.ofMnemonic? (String.ofList (lowercase m)) = none := by
        cases ho : Opcode.ofMnemonic? (String.ofList (lowercase m)) with
        | none => rfl
        | some o =>
            have hspelled := Opcode.ofMnemonic?_lowercase_iff.mp ho
            exact absurd (Opcode.lowercase_eq_mnemonic_iff.mpr hspelled) (mnemonic o)
      have hfault : readColumns line = .error (.mnemonic (lowercase m)) := by
        simp [readColumns, cut.columns_eq, Numeral.scan_of_form numeral, hnone]
      rw [readLine, hfault]
      exact LineError.raise_eq _
  | @digits count overlong =>
      -- Nothing is wrong with the columns, and the digits are counted last.
      obtain ⟨cut, numeral, mnemonic, long⟩ := overlong
      have hspelled := Opcode.lowercase_eq_mnemonic_iff.mp mnemonic
      rw [readLine, readColumns_of_cut cut numeral hspelled]
      simp [Numeral.value_scanned, Nat.not_le.mpr long, ListingError.written]

/-- Every line spells an instruction or is refused. -/
theorem exists_spelledBy_or_refusal (line : List Char) (number : Int) :
    (∃ i : Instruction, i.SpelledBy line) ∨ ∃ e, Refusal line number e := by
  have hcut := cut_columns line
  by_cases hcount : (columns line).length = 2
  · obtain ⟨m, a, hcolumns⟩ := List.length_eq_two.mp hcount
    rw [hcolumns] at hcut
    by_cases hnumeral : ∃ negative ds, Numeral.Form a negative ds
    · obtain ⟨negative, ds, numeral⟩ := hnumeral
      by_cases hmnemonic : ∃ o : Opcode, lowercase m = o.mnemonic.toList
      · obtain ⟨o, mnemonic⟩ := hmnemonic
        by_cases hshort : ds.length ≤ Numeral.digitLimit
        · refine .inl ⟨⟨o, Numeral.denoted negative ds⟩, Instruction.spelledBy_iff.mpr ?_⟩
          exact ⟨m, a, negative, ds, hcut, Opcode.lowercase_eq_mnemonic_iff.mp mnemonic, numeral,
            hshort, rfl⟩
        · exact .inr ⟨_, .digits ⟨hcut, numeral, mnemonic, Nat.lt_of_not_le hshort⟩⟩
      · exact .inr ⟨_, .mnemonic hcut numeral fun o ho => hmnemonic ⟨o, ho⟩⟩
    · exact .inr ⟨_, .argument hcut fun negative ds h => hnumeral ⟨negative, ds, h⟩⟩
  · exact .inr ⟨_, .columns hcut hcount⟩

/-- A line is read as an instruction exactly if it spells it. -/
theorem readLine_eq_ok_iff : readLine line number = .ok i ↔ i.SpelledBy line := by
  constructor
  · intro h
    rcases exists_spelledBy_or_refusal line number with ⟨j, hj⟩ | ⟨e, he⟩
    · cases (readLine_of_spelledBy hj number).symm.trans h
      exact hj
    · cases (readLine_of_refusal he).symm.trans h
  · intro h
    exact readLine_of_spelledBy h number

/-- A line is refused exactly with the error that is told of it. -/
theorem readLine_eq_error_iff :
    readLine line number = .error e ↔ ∃ e₀, Refusal line number e₀ ∧ e₀.written = e := by
  constructor
  · intro h
    rcases exists_spelledBy_or_refusal line number with ⟨j, hj⟩ | ⟨e₀, he₀⟩
    · cases (readLine_of_spelledBy hj number).symm.trans h
    · cases (readLine_of_refusal he₀).symm.trans h
      exact ⟨e₀, he₀, rfl⟩
  · rintro ⟨e₀, he₀, rfl⟩
    exact readLine_of_refusal he₀

/-- If the number of the line can be written, every error is told as it
is. -/
theorem Refusal.written_eq (h : Refusal line number e) (hnumber : Numeral.Short number) :
    e.written = e := by
  have hfits := Numeral.fits_iff.mpr hnumber
  cases h with
  | columns _ _ => simp [ListingError.written, hfits]
  | argument _ _ => simp [ListingError.written, hfits]
  | mnemonic _ _ _ => simp [ListingError.written, hfits]
  | digits _ => rfl

/-- If the number of the line cannot be written, that is told instead of
the error. -/
theorem ListingError.written_of_not_short {e : LineError} (h : ¬Numeral.Short e.number) :
    (ListingError.line e).written = .numeral .tooLarge := by
  rw [written, if_neg (mt Numeral.fits_iff.mp h)]

/-- If the number of the line can be written, the line is refused exactly
with the error that is for it. -/
theorem readLine_eq_error_iff_refusal (hnumber : Numeral.Short number) :
    readLine line number = .error e ↔ Refusal line number e := by
  rw [readLine_eq_error_iff]
  constructor
  · rintro ⟨e₀, he₀, rfl⟩
    rwa [he₀.written_eq hnumber]
  · intro h
    exact ⟨e, h, h.written_eq hnumber⟩

/-- A line with a number that can be written is read as the instruction
that it spells. A line that spells none is refused with the first of the
errors that is for it. The lower-casing of the mnemonic admits the
letters of ASCII alone. -/
theorem readLine_grammar (line : List Char) (number : Int) (hnumber : Numeral.Short number) :
    (∀ i, readLine line number = .ok i ↔ i.SpelledBy line)
    ∧ (∀ e, readLine line number = .error e ↔ Refusal line number e)
    ∧ ∀ (o : Opcode) text, lowercase text = o.mnemonic.toList ↔ o.SpelledBy text := by
  refine ⟨?_, ?_, ?_⟩
  · intro i
    exact readLine_eq_ok_iff
  · intro e
    exact readLine_eq_error_iff_refusal hnumber
  · intro o text
    exact Opcode.lowercase_eq_mnemonic_iff

/-- Blanks beyond ASCII and leading zeros do not matter. A digit that is
not of ASCII does: the line is refused for it. -/
theorem readLine_grammar_demonstration :
    Numeral.Short 12
      ∧ readLine "\u2003AcC\t-007 ".toList 12 = .ok ⟨.acc, -7⟩
      ∧ readLine "jmp +\u0663".toList 12
        = .error (.line ⟨.argument "+\u0663".toList, 12, "jmp +\u0663".toList⟩) := by
  have hshort : Numeral.Short 12 := by decide
  obtain ⟨hok, -, -⟩ := readLine_grammar "\u2003AcC\t-007 ".toList 12 hshort
  obtain ⟨-, herror, -⟩ := readLine_grammar "jmp +\u0663".toList 12 hshort
  refine ⟨hshort, (hok _).mpr ?_, (herror _).mpr ?_⟩
  · exact Instruction.spelledBy_iff.mpr ⟨"AcC".toList, "-007".toList, true, "007".toList,
      cut_iff.mpr (by decide), by decide, .minus (by decide), by decide, by decide⟩
  · refine .argument (m := "jmp".toList) (cut_iff.mpr (by decide)) ?_
    intro negative ds h
    have hdigit := h.digits_right
    cases h with
    | bare h => exact absurd h (by decide)
    | plus h => exact absurd h (by decide)

end AccumulatorMachine
