import AccumulatorMachine.Pipeline
import AccumulatorMachine.Proofs.RoundTrip

/-!
# `AccumulatorMachine.Proofs.CanonicalListing`: the listings that are written

Many listings are read as the same program: mnemonics have any case,
numbers may have zeros in front or no sign, blanks and blank lines do
not matter. One of them is written. `Canonical` is the grammar of the
listings that are written, line by line and without reference to
programs, and `canonical_iff` says that it describes what is written for
programs whose arguments are not too long.

The argument of an instruction that was read is never too long
(`Program.short_of_read`), so a listing that was read is always written
again. `Program.rewriteListing_canonical` puts this together: what is
written is read as the same program, is written as it is, and only
canonical listings are.
-/

set_option autoImplicit false

namespace AccumulatorMachine

open Text

/-! ### Numbers in their shortest form -/

namespace Numeral

/-- Whether digits are those of a number without zeros in front: a zero
alone, or digits the first of which is not zero. -/
def Shortest (ds : List Char) : Prop := ds = ['0'] ∨ Digits ds ∧ ds.head? ≠ some '0'

instance (ds : List Char) : Decidable (Shortest ds) := inferInstanceAs (Decidable (_ ∨ _))

variable {ds : List Char} {n : Nat}

/-- A number that is not zero does not begin with a zero. -/
theorem head?_toDigits_ne (h : 0 < n) : (Nat.toDigits 10 n).head? ≠ some '0' := by
  induction n using Nat.strongRecOn with
  | ind n ih =>
      by_cases hlt : n < 10
      · rw [Nat.toDigits_of_lt_base hlt]
        have hdigit : ∀ d < 10, 0 < d → [Nat.digitChar d].head? ≠ some '0' := by decide
        exact hdigit n hlt h
      · -- The first digit is that of the number without its last one.
        have hten : 10 ≤ n := Nat.le_of_not_lt hlt
        have hrest := ih (n / 10) (by omega) (by omega)
        rw [Nat.toDigits_of_base_le (by decide) hten]
        rwa [List.head?_append_of_ne_nil _ Nat.toDigits_ne_nil]

/-- Digits that are written for a number have no zero in front. -/
theorem shortest_toDigits (n : Nat) : Shortest (Nat.toDigits 10 n) := by
  by_cases h : n = 0
  · subst h
    exact .inl rfl
  · exact .inr ⟨digits_toDigits n, head?_toDigits_ne (Nat.pos_of_ne_zero h)⟩

/-- The digit of a number below ten is the character that it is the value
of. -/
theorem digitChar_sub {c : Char} (h : c.isDigit = true) : Nat.digitChar (c.toNat - 48) = c := by
  have hall : ∀ k < 10, Nat.digitChar k = Char.ofNat (48 + k) := by decide
  have hc := Char.isDigit_iff_toNat.mp h
  have hzero : '0'.toNat = 48 := rfl
  have hnine : '9'.toNat = 57 := rfl
  rw [hall _ (by omega), show 48 + (c.toNat - 48) = c.toNat by omega, Char.ofNat_toNat]

/-- When a digit is put behind a number that is not zero, it is put
behind its digits. -/
theorem toDigits_snoc {c : Char} (hn : 0 < n) (hc : c.isDigit = true) :
    Nat.toDigits 10 (10 * n + (c.toNat - 48)) = Nat.toDigits 10 n ++ [c] := by
  have hbounds := Char.isDigit_iff_toNat.mp hc
  have hnine : '9'.toNat = 57 := rfl
  have hlt : c.toNat - 48 < 10 := by omega
  rw [← Nat.toDigits_append_toDigits (by decide) hn hlt, Nat.toDigits_of_lt_base hlt,
    digitChar_sub hc]

/-- Digits that are taken one after the other, after a number that is not
zero, are put behind the digits of that number. -/
theorem toDigits_ofDigitChars (hn : 0 < n) (h : ∀ c ∈ ds, c.isDigit = true) :
    Nat.toDigits 10 (Nat.ofDigitChars 10 ds n) = Nat.toDigits 10 n ++ ds := by
  induction ds generalizing n with
  | nil => simp
  | cons c ds ih =>
      have hc := h c List.mem_cons_self
      have hrest := fun d hd => h d (List.mem_cons_of_mem c hd)
      have hzero : '0'.toNat = 48 := rfl
      rw [Nat.ofDigitChars_cons, hzero, ih (by omega) hrest, toDigits_snoc hn hc,
        List.append_assoc]
      rfl

/-- Digits in their shortest form are the digits of their value. -/
theorem toDigits_of_shortest (h : Shortest ds) :
    Nat.toDigits 10 (Nat.ofDigitChars 10 ds 0) = ds := by
  rcases h with rfl | ⟨⟨hne, hdigit⟩, hhead⟩
  · decide
  · cases ds with
    | nil => exact absurd rfl hne
    | cons c ds =>
        have hc := hdigit c List.mem_cons_self
        have hrest := fun d hd => hdigit d (List.mem_cons_of_mem c hd)
        have hbounds := Char.isDigit_iff_toNat.mp hc
        have hzero : '0'.toNat = 48 := rfl
        have hnine : '9'.toNat = 57 := rfl
        -- Without a zero in front the first digit is a number to put the others behind.
        have hpos : c.toNat ≠ 48 := by
          intro hcode
          have hchar : c = '0' := by rw [← Char.ofNat_toNat c, hcode]
          exact hhead (by rw [hchar]; rfl)
        have hfirst : Nat.toDigits 10 (c.toNat - 48) = [c] := by
          rw [Nat.toDigits_of_lt_base (by omega), digitChar_sub hc]
        rw [Nat.ofDigitChars_cons, hzero, Nat.mul_zero, Nat.zero_add,
          toDigits_ofDigitChars (by omega) hrest, hfirst]
        rfl

/-- The value of digits has no more digits than they are. -/
theorem ofDigitChars_lt (h : ∀ c ∈ ds, c.isDigit = true) :
    Nat.ofDigitChars 10 ds 0 < Nat.pow 10 ds.length := by
  rw [Nat.pow_eq]
  induction ds with
  | nil => simp
  | cons c ds ih =>
      have hrest := ih fun d hd => h d (List.mem_cons_of_mem c hd)
      have hc := Char.isDigit_iff_toNat.mp (h c List.mem_cons_self)
      have hzero : '0'.toNat = 48 := rfl
      have hnine : '9'.toNat = 57 := rfl
      -- The first digit adds at most nine times the power of ten that the others are below.
      have hdigit : c.toNat - '0'.toNat ≤ 9 := by omega
      rw [Nat.ofDigitChars_cons, Nat.ofDigitChars_eq_ofDigitChars_zero, Nat.mul_zero,
        Nat.zero_add, List.length_cons, Nat.pow_succ]
      have hhead := Nat.mul_le_mul_left (10 ^ ds.length) hdigit
      omega

/-- Digits that are no more than `k` have a value of at most `k` digits. -/
theorem ofDigitChars_lt_of_length_le {k : Nat} (h : Digits ds) (hk : ds.length ≤ k) :
    Nat.ofDigitChars 10 ds 0 < Nat.pow 10 k :=
  Nat.lt_of_lt_of_le (ofDigitChars_lt h.2) (Nat.pow_le_pow_right (by decide) hk)

/-- The sign does not change the size of what is denoted. -/
theorem natAbs_denoted (negative : Bool) (ds : List Char) :
    (denoted negative ds).natAbs = Nat.ofDigitChars 10 ds 0 := by
  cases negative with
  | true => simp [denoted]
  | false => simp [denoted]

/-- A numeral that is not too long denotes an integer that is not too
long, zeros in front or not. -/
theorem short_denoted (hdigits : Digits ds) (hlength : ds.length ≤ digitLimit)
    (negative : Bool) : Short (denoted negative ds) := by
  rw [← fits_iff, fits, decide_eq_true_iff, natAbs_denoted]
  exact ofDigitChars_lt_of_length_le hdigits hlength

end Numeral

/-! ### The grammar -/

/-- The lines that are written: a mnemonic in lower case, one space, a
sign, digits in their shortest form, and a line feed. Zero has a plus
sign. -/
inductive CanonicalLine : List Char → Prop
  | columns {o : Opcode} {sign : Char} {ds : List Char} (signed : sign = '+' ∨ sign = '-')
      (shortest : Numeral.Shortest ds) (short : ds.length ≤ Numeral.digitLimit)
      (zero : ds = ['0'] → sign = '+') :
      CanonicalLine (o.mnemonic.toList ++ [' ', sign] ++ ds ++ ['\n'])

/-- The listings that are written are such lines, one after the other. -/
def Canonical (text : String) : Prop :=
  ∃ ls : List (List Char), (∀ l ∈ ls, CanonicalLine l) ∧ text.toList = ls.flatten

variable {i : Instruction} {l : List Char} {p : Program} {text : String}

/-- What is written for an instruction is such a line. -/
theorem Instruction.canonicalLine_canonical (h : Numeral.Short i.argument) :
    CanonicalLine (i.canonical ++ ['\n']) := by
  have hshortest := Numeral.shortest_toDigits i.argument.natAbs
  have hline : i.canonical ++ ['\n']
      = i.opcode.mnemonic.toList ++ [' ', if i.argument < 0 then '-' else '+']
        ++ Nat.toDigits 10 i.argument.natAbs ++ ['\n'] := by
    simp [canonical, Numeral.signedText]
  rw [hline]
  by_cases hneg : i.argument < 0
  · rw [if_pos hneg]
    refine .columns (.inr rfl) hshortest h ?_
    -- Below zero, the digits are not those of zero.
    intro hzero
    have hvalue : Nat.ofDigitChars 10 (Nat.toDigits 10 i.argument.natAbs) 0 = 0 := by
      rw [hzero]
      rfl
    rw [Nat.ofDigitChars_ten_toDigits] at hvalue
    omega
  · rw [if_neg hneg]
    exact .columns (.inl rfl) hshortest h fun _ => rfl

/-- Such a line is written for the instruction that it spells. -/
theorem CanonicalLine.exists_instruction (h : CanonicalLine l) :
    ∃ i : Instruction, Numeral.Short i.argument ∧ l = i.canonical ++ ['\n'] := by
  cases h with
  | @columns o sign ds signed shortest short zero =>
      have hdigits : Numeral.Digits ds := by
        rcases shortest with rfl | ⟨hdigits, -⟩
        · decide
        · exact hdigits
      have htoDigits := Numeral.toDigits_of_shortest shortest
      refine ⟨⟨o, Numeral.denoted (sign == '-') ds⟩, Numeral.short_denoted hdigits short _, ?_⟩
      have hsign : (if Numeral.denoted (sign == '-') ds < 0 then '-' else '+') = sign := by
        rcases signed with rfl | rfl
        · refine if_neg ?_
          have hvalue : Numeral.denoted ('+' == '-') ds = (Nat.ofDigitChars 10 ds 0 : Int) := rfl
          omega
        · refine if_pos ?_
          have hvalue : Numeral.denoted ('-' == '-') ds = -(Nat.ofDigitChars 10 ds 0 : Int) := rfl
          -- The grammar has no zero with a minus sign.
          have hne : Nat.ofDigitChars 10 ds 0 ≠ 0 := by
            intro hzero
            rw [hzero] at htoDigits
            cases zero htoDigits.symm
          omega
      simp [Instruction.canonical, Numeral.signedText, hsign, Numeral.natAbs_denoted, htoDigits]

/-- The canonical text is a line for each instruction, each with its line
feed. Lines are cut and compared as lists of characters, so the text is
needed as one. -/
theorem Program.toList_canonicalText (p : Program) :
    p.canonicalText.toList = (p.toList.map fun i => i.canonical ++ ['\n']).flatten := by
  rw [canonicalText, String.toList_join, List.flatMap_map, List.flatMap_def]
  simp only [String.toList_ofList]

/-- Lines that are each written for some instruction are written for some
instructions. -/
theorem exists_instructions {ls : List (List Char)} (h : ∀ l ∈ ls, CanonicalLine l) :
    ∃ is : List Instruction, (∀ i ∈ is, Numeral.Short i.argument)
      ∧ ls = is.map fun i => i.canonical ++ ['\n'] := by
  induction ls with
  | nil => exact ⟨[], by simp, rfl⟩
  | cons l ls ih =>
      obtain ⟨i, hi, rfl⟩ := (h l List.mem_cons_self).exists_instruction
      obtain ⟨is, his, rfl⟩ := ih fun k hk => h k (List.mem_cons_of_mem _ hk)
      exact ⟨i :: is, List.forall_mem_cons.mpr ⟨hi, his⟩, rfl⟩

/-- The canonical listings are those that are written for programs. -/
theorem canonical_iff :
    Canonical text ↔ ∃ p : Program, (∀ i ∈ p.toList, Numeral.Short i.argument)
      ∧ text = p.canonicalText := by
  constructor
  · rintro ⟨ls, hls, htext⟩
    obtain ⟨is, his, rfl⟩ := exists_instructions hls
    refine ⟨.ofList is, his, String.toList_injective ?_⟩
    rw [htext, Program.toList_canonicalText, Program.toList_ofList]
  · rintro ⟨p, hp, rfl⟩
    refine ⟨_, ?_, p.toList_canonicalText⟩
    intro l hl
    obtain ⟨i, hi, rfl⟩ := List.mem_map.mp hl
    exact i.canonicalLine_canonical (hp i hi)

/-! ### Writing what was read -/

/-- A line that is accepted had an argument within the digit limit, so the
instruction can be written again. -/
theorem Instruction.SpelledBy.short (h : i.SpelledBy l) : Numeral.Short i.argument := by
  obtain ⟨m, a, negative, ds, -, -, numeral, short, hargument⟩ := spelledBy_iff.mp h
  rw [hargument]
  exact Numeral.short_denoted numeral.digits_right short negative

namespace Program

/-- Every argument that was read can be written. -/
theorem short_of_read (h : read text = .ok p) : ∀ i ∈ p.toList, Numeral.Short i.argument := by
  have hspelled := readLines_eq_ok_iff.mp (read_eq_ok_iff.mp h)
  intro i hi
  obtain ⟨k, hk, rfl⟩ := List.getElem_of_mem hi
  have hl := hspelled.get hk (hspelled.length_eq ▸ hk)
  exact hl.short

/-- If a listing is read, then rewriting it cannot fail: all its arguments
are short enough to be written. -/
theorem ending_rewriteListing_of_read (h : read text = .ok p) :
    (rewriteListing text).ending = .ok p.canonicalText := by
  rw [rewriteListing, load_of_read h, Transcript.bind_of_ok rfl, listing_of_short (short_of_read h)]
  rfl

/-- Only a listing that is read is written again. -/
theorem exists_read_of_rewriteListing {u : String} (h : (rewriteListing text).ending = .ok u) :
    ∃ p, read text = .ok p := by
  cases hread : read text with
  | error e =>
      rw [rewriteListing, load_of_read_error hread] at h
      cases h
  | ok p => exact ⟨p, rfl⟩

/-- A listing that is read is written again, and what is written is read
as the same program and written as it is. A listing is written as it is
exactly if it is canonical. -/
theorem rewriteListing_canonical (text : String) :
    (∀ p, read text = .ok p →
      ∃ u, (rewriteListing text).ending = .ok u ∧ read u = .ok p
        ∧ (rewriteListing u).ending = .ok u)
    ∧ ((rewriteListing text).ending = .ok text ↔ Canonical text) := by
  refine ⟨?_, ?_, ?_⟩
  · intro p hp
    have hread := read_canonicalText (short_of_read hp)
    exact ⟨_, ending_rewriteListing_of_read hp, hread, ending_rewriteListing_of_read hread⟩
  · intro h
    obtain ⟨p, hp⟩ := exists_read_of_rewriteListing h
    have hwritten := ending_rewriteListing_of_read hp
    rw [h] at hwritten
    exact canonical_iff.mpr ⟨p, short_of_read hp, Except.ok.inj hwritten⟩
  · intro h
    obtain ⟨p, hp, rfl⟩ := canonical_iff.mp h
    exact ending_rewriteListing_of_read (read_canonicalText hp)

/-- Capital letters, other blanks, zeros in front, a blank line, the
minus sign of a zero and a missing line feed are gone when the listing is
written again. -/
theorem rewriteListing_canonical_demonstration :
    read "\tAcC\u2003-007\r\n\r\nNOP -0" = .ok (ofList [⟨.acc, -7⟩, ⟨.nop, 0⟩])
      ∧ (rewriteListing "\tAcC\u2003-007\r\n\r\nNOP -0").ending = .ok "acc -7\nnop +0\n"
      ∧ read "acc -7\nnop +0\n" = .ok (ofList [⟨.acc, -7⟩, ⟨.nop, 0⟩])
      ∧ Canonical "acc -7\nnop +0\n"
      ∧ ¬Canonical "\tAcC\u2003-007\r\n\r\nNOP -0" := by
  have hread : read "\tAcC\u2003-007\r\n\r\nNOP -0" = .ok (ofList [⟨.acc, -7⟩, ⟨.nop, 0⟩]) := by
    decide +kernel
  have hwritten : (rewriteListing "\tAcC\u2003-007\r\n\r\nNOP -0").ending
      = .ok "acc -7\nnop +0\n" :=
    ending_rewriteListing_of_read hread
  obtain ⟨hsame, hiff⟩ := rewriteListing_canonical "\tAcC\u2003-007\r\n\r\nNOP -0"
  obtain ⟨u, hu, hagain, hfixed⟩ := hsame _ hread
  cases hwritten.symm.trans hu
  obtain ⟨-, hcanonical⟩ := rewriteListing_canonical "acc -7\nnop +0\n"
  refine ⟨hread, hwritten, hagain, hcanonical.mp hfixed, fun h => ?_⟩
  have hother := hwritten.symm.trans (hiff.mpr h)
  exact absurd (Except.ok.inj hother) (by decide)

end Program

end AccumulatorMachine
