import Mathlib.Data.List.Forall2
import AccumulatorMachine.Proofs.LineEnd
import AccumulatorMachine.Proofs.LineGrammar

/-!
# `AccumulatorMachine.Proofs.FirstFault`: which line a listing is refused for

A line passes if it is blank or spells an instruction. A listing whose
lines all pass is read as the instructions of the lines that are not
blank, in order (`readLines_eq_ok_iff`). Otherwise there is a first line
that does not pass, and the listing is refused with the error of that
line; what comes after it is not looked at (`readLines_eq_error_iff`).

For a whole listing this is `Program.exists_read_iff` and
`Program.exists_refusal_of_firstFault`, and `Program.read_first_fault`
puts them together. The error names the line and its number, with two
exceptions, both about numerals that are too long: the line has such a
numeral for its argument, or the number of the line would be one.
-/

set_option autoImplicit false

namespace AccumulatorMachine

open Text

/-- Whether a line is blank or spells an instruction. -/
def Passes (line : List Char) : Prop := Blanks line ∨ ∃ i : Instruction, i.SpelledBy line

/-- The first of the lines that does not pass: the number of lines
before it, and its text. -/
structure FirstFault (ls : List (List Char)) (k : Nat) (line : List Char) : Prop where
  place : ls[k]? = some line
  fault : ¬Passes line
  before : ∀ l ∈ ls.take k, Passes l

variable {line rest : List Char} {ls : List (List Char)} {k n : Nat} {i : Instruction}
  {is : List Instruction} {e : ListingError}

/-! ### One line -/

/-- A line that is skipped is one of nothing but blanks. -/
theorem isBlankLine_iff : isBlankLine line = true ↔ Blanks line := List.all_eq_true

/-- A line that spells an instruction has columns, so it is not blank. -/
theorem Instruction.SpelledBy.not_blanks (h : i.SpelledBy line) : ¬Blanks line := by
  obtain ⟨m, a, -, -, hcut, -⟩ := Instruction.spelledBy_iff.mp h
  exact hcut.not_blanks

/-- A line that does not pass is refused. -/
theorem exists_refusal (h : ¬Passes line) (number : Int) : ∃ e, Refusal line number e := by
  rcases exists_spelledBy_or_refusal line number with hspelled | hrefusal
  · exact absurd (.inr hspelled) h
  · exact hrefusal

/-- A blank line is skipped, but it is counted. -/
theorem readLines_of_blanks (h : Blanks line) (n : Nat) (ls : List (List Char)) :
    readLines n (line :: ls) = readLines (n + 1) ls := by
  rw [readLines, if_pos (isBlankLine_iff.mpr h)]

/-- A line that spells an instruction puts it in front of what the others
are read as. -/
theorem readLines_of_spelledBy (h : i.SpelledBy line) (n : Nat) (ls : List (List Char)) :
    readLines n (line :: ls) = (readLines (n + 1) ls).map (i :: ·) := by
  rw [readLines, if_neg (mt isBlankLine_iff.mp h.not_blanks), readLine_of_spelledBy h]
  cases readLines (n + 1) ls with
  | error e => rfl
  | ok is => rfl

/-- A line that is neither is the last one that is looked at. -/
theorem readLines_of_not_passes (h : ¬Passes line) (he : readLine line n = .error e)
    (ls : List (List Char)) : readLines n (line :: ls) = .error e := by
  rw [readLines, if_neg fun hblank => h (.inl (isBlankLine_iff.mp hblank)), he]
  rfl

/-! ### All lines -/

/-- The first line is the first fault exactly if it does not pass. -/
@[simp]
theorem firstFault_cons_zero {l : List Char} :
    FirstFault (l :: ls) 0 line ↔ l = line ∧ ¬Passes line := by
  constructor
  · intro h
    exact ⟨Option.some.inj h.place, h.fault⟩
  · rintro ⟨rfl, h⟩
    exact ⟨rfl, h, by simp⟩

/-- A later line is the first fault only if the first line passes; the rest
is a question about the lines after it. -/
@[simp]
theorem firstFault_cons_succ {l : List Char} :
    FirstFault (l :: ls) (k + 1) line ↔ Passes l ∧ FirstFault ls k line := by
  constructor
  · intro h
    have hbefore := h.before
    rw [List.take_succ_cons, List.forall_mem_cons] at hbefore
    exact ⟨hbefore.1, by simpa using h.place, h.fault, hbefore.2⟩
  · rintro ⟨hl, h⟩
    refine ⟨by simpa using h.place, h.fault, ?_⟩
    rw [List.take_succ_cons, List.forall_mem_cons]
    exact ⟨hl, h.before⟩

/-- Either all lines pass or there is a first one that does not. -/
theorem passes_or_exists_firstFault (ls : List (List Char)) :
    (∀ l ∈ ls, Passes l) ∨ ∃ k line, FirstFault ls k line := by
  induction ls with
  | nil => exact .inl (by simp)
  | cons l ls ih =>
      by_cases hl : Passes l
      · rcases ih with hpass | ⟨k, line, hfault⟩
        · exact .inl (List.forall_mem_cons.mpr ⟨hl, hpass⟩)
        · exact .inr ⟨k + 1, line, firstFault_cons_succ.mpr ⟨hl, hfault⟩⟩
      · exact .inr ⟨0, l, firstFault_cons_zero.mpr ⟨rfl, hl⟩⟩

/-- A line that is not blank gives one instruction, which it spells. -/
theorem readLines_cons_eq_ok_iff (h : ¬Blanks line) :
    readLines n (line :: ls) = .ok is
      ↔ ∃ i js, i.SpelledBy line ∧ readLines (n + 1) ls = .ok js ∧ is = i :: js := by
  rw [readLines, if_neg (mt isBlankLine_iff.mp h)]
  constructor
  · intro hread
    cases hline : readLine line n with
    | error e =>
        rw [hline] at hread
        cases hread
    | ok i =>
        cases hrest : readLines (n + 1) ls with
        | error e =>
            rw [hline, hrest] at hread
            cases hread
        | ok js =>
            rw [hline, hrest] at hread
            cases hread
            exact ⟨i, js, readLine_eq_ok_iff.mp hline, rfl, rfl⟩
  · rintro ⟨i, js, hi, hrest, rfl⟩
    rw [readLine_of_spelledBy hi, hrest]
    rfl

/-- Lines are read as instructions exactly if those that are not blank
spell them, one by one. The number of the first line does not matter. -/
theorem readLines_eq_ok_iff :
    readLines n ls = .ok is
      ↔ List.Forall₂ Instruction.SpelledBy is (ls.filter fun l => !isBlankLine l) := by
  induction ls generalizing n is with
  | nil =>
      rw [List.filter_nil, List.forall₂_nil_right_iff, readLines]
      exact ⟨fun h => (Except.ok.inj h).symm, fun h => by rw [h]⟩
  | cons l ls ih =>
      by_cases hblank : Blanks l
      · have hl := isBlankLine_iff.mpr hblank
        rw [readLines_of_blanks hblank, ih, List.filter_cons_of_neg (by simp [hl])]
      · have hl : isBlankLine l = false := by simpa using mt isBlankLine_iff.mp hblank
        rw [List.filter_cons_of_pos (by simp [hl]), readLines_cons_eq_ok_iff hblank,
          List.forall₂_cons_right_iff]
        simp only [ih]

/-- The first line that does not pass decides for which error the lines
are refused. -/
theorem readLines_of_firstFault (h : FirstFault ls k line)
    (he : readLine line (n + k : Nat) = .error e) : readLines n ls = .error e := by
  induction ls generalizing n k with
  | nil => exact absurd h.place (by simp)
  | cons l ls ih =>
      cases k with
      | zero =>
          obtain ⟨rfl, hfault⟩ := firstFault_cons_zero.mp h
          exact readLines_of_not_passes hfault he ls
      | succ k =>
          obtain ⟨hl, hrest⟩ := firstFault_cons_succ.mp h
          have hread : readLines (n + 1) ls = .error e := by
            refine ih hrest ?_
            rwa [Nat.add_right_comm, Nat.add_assoc]
          rcases hl with hblank | ⟨i, hi⟩
          · rw [readLines_of_blanks hblank, hread]
          · rw [readLines_of_spelledBy hi, hread]
            rfl

/-- Lines that all pass are not refused. -/
theorem exists_readLines_of_passes (h : ∀ l ∈ ls, Passes l) (n : Nat) :
    ∃ is, readLines n ls = .ok is := by
  induction ls generalizing n with
  | nil => exact ⟨[], rfl⟩
  | cons l ls ih =>
      obtain ⟨hl, hrest⟩ := List.forall_mem_cons.mp h
      obtain ⟨is, his⟩ := ih hrest (n + 1)
      rcases hl with hblank | ⟨i, hi⟩
      · exact ⟨is, by rw [readLines_of_blanks hblank, his]⟩
      · refine ⟨i :: is, ?_⟩
        rw [readLines_of_spelledBy hi, his]
        rfl

/-- Lines are refused exactly with the error of the first one that does
not pass. -/
theorem readLines_eq_error_iff :
    readLines n ls = .error e
      ↔ ∃ k line, FirstFault ls k line ∧ readLine line (n + k : Nat) = .error e := by
  constructor
  · intro h
    rcases passes_or_exists_firstFault ls with hpass | ⟨k, line, hfault⟩
    · obtain ⟨is, his⟩ := exists_readLines_of_passes hpass n
      cases his.symm.trans h
    · obtain ⟨e₀, he₀⟩ := exists_refusal hfault.fault (n + k : Nat)
      have hread := readLine_of_refusal he₀
      cases (readLines_of_firstFault hfault hread).symm.trans h
      exact ⟨k, line, hfault, hread⟩
  · rintro ⟨k, line, hfault, he⟩
    exact readLines_of_firstFault hfault he

/-! ### A listing -/

/-- A text is read as the lines that it is cut into, counted from `1`. -/
theorem Program.read_eq_ok_iff {source : String} {p : Program} :
    read source = .ok p ↔ readLines 1 (lines source.toList) = .ok p.toList := by
  unfold read
  cases readLines 1 (lines source.toList) with
  | error e => exact ⟨nofun, nofun⟩
  | ok is =>
      constructor
      · intro h
        cases h
        rfl
      · intro h
        cases h
        rfl

/-- The same for a listing that is refused. -/
theorem Program.read_eq_error_iff {source : String} :
    read source = .error e ↔ readLines 1 (lines source.toList) = .error e := by
  unfold read
  cases readLines 1 (lines source.toList) with
  | error e' =>
      constructor
      · intro h
        cases h
        rfl
      · intro h
        cases h
        rfl
  | ok is => exact ⟨nofun, nofun⟩

/-- An error names the line and its number, unless it is about the
digits of the argument. -/
theorem Refusal.line_or_overlong {number : Int} (h : Refusal line number e) :
    (∃ fault, e = .line ⟨fault, number, line⟩)
    ∨ ∃ count, Overlong line count ∧ e = .numeral (.tooManyDigits count) := by
  cases h with
  | columns _ _ => exact .inl ⟨_, rfl⟩
  | argument _ _ => exact .inl ⟨_, rfl⟩
  | mnemonic _ _ _ => exact .inl ⟨_, rfl⟩
  | digits overlong => exact .inr ⟨_, overlong, rfl⟩

/-- A listing with a line that does not pass is refused for the first such
line, with what can be told of its error. -/
theorem Program.exists_refusal_of_firstFault {source : String}
    (h : FirstFault (lines source.toList) k line) :
    ∃ e, Refusal line (k + 1 : Nat) e ∧ read source = .error e.written := by
  obtain ⟨e, he⟩ := exists_refusal h.fault (k + 1 : Nat)
  refine ⟨e, he, read_eq_error_iff.mpr (readLines_of_firstFault h ?_)⟩
  rw [Nat.add_comm]
  exact readLine_of_refusal he

/-- So a listing is read exactly if all of its lines pass. -/
theorem Program.exists_read_iff {source : String} :
    (∃ p, read source = .ok p) ↔ ∀ line ∈ lines source.toList, Passes line := by
  constructor
  · rintro ⟨p, hp⟩
    rcases passes_or_exists_firstFault (lines source.toList) with hpass | ⟨k, line, hfault⟩
    · exact hpass
    · obtain ⟨e, -, he⟩ := exists_refusal_of_firstFault hfault
      cases hp.symm.trans he
  · intro hpass
    obtain ⟨is, his⟩ := exists_readLines_of_passes hpass 1
    exact ⟨ofList is, read_eq_ok_iff.mpr his⟩

/-- A listing whose lines all pass is read as the program of their
instructions. Any other one is refused with the error of the first line
that does not pass, which names that line and its number. There are two
exceptions: the line has all of an instruction, but too many digits in
its argument; or the number of the line cannot be written. -/
theorem Program.read_first_fault (source : String) :
    ((∀ line ∈ lines source.toList, Passes line)
      ∧ ∃ p, read source = .ok p
        ∧ List.Forall₂ Instruction.SpelledBy p.toList
            ((lines source.toList).filter fun line => !isBlankLine line))
    ∨ ∃ k line, FirstFault (lines source.toList) k line
      ∧ ((∃ fault, Refusal line (k + 1 : Nat) (.line ⟨fault, (k + 1 : Nat), line⟩)
            ∧ read source = .error (.line ⟨fault, (k + 1 : Nat), line⟩))
        ∨ (∃ count, Overlong line count
            ∧ read source = .error (.numeral (.tooManyDigits count)))
        ∨ (¬Numeral.Short (k + 1 : Nat) ∧ read source = .error (.numeral .tooLarge))) := by
  rcases passes_or_exists_firstFault (lines source.toList) with hpass | ⟨k, line, hfault⟩
  · obtain ⟨p, hp⟩ := exists_read_iff.mpr hpass
    exact .inl ⟨hpass, p, hp, readLines_eq_ok_iff.mp (read_eq_ok_iff.mp hp)⟩
  · obtain ⟨e, he, hread⟩ := exists_refusal_of_firstFault hfault
    refine .inr ⟨k, line, hfault, ?_⟩
    rw [hread]
    rcases he.line_or_overlong with ⟨fault, rfl⟩ | ⟨count, hcount, rfl⟩
    · -- The error has a number, so that it can be told only if that is short.
      by_cases hshort : Numeral.Short (k + 1 : Nat)
      · exact .inl ⟨fault, he, by rw [he.written_eq hshort]⟩
      · exact .inr (.inr ⟨hshort, by rw [ListingError.written_of_not_short hshort]⟩)
    · exact .inr (.inl ⟨count, hcount, rfl⟩)

/-! ### An argument with too many digits -/

/-- A line with too many digits does not pass. -/
theorem Overlong.not_passes {count : Nat} (h : Overlong line count) : ¬Passes line := by
  rintro (hblank | ⟨i, hi⟩)
  · obtain ⟨hcut, -, -, -⟩ := h
    exact hcut.not_blanks hblank
  · have hrefusal : Refusal line 1 (.numeral (.tooManyDigits count)) := .digits h
    have hread := readLine_of_refusal hrefusal
    rw [readLine_of_spelledBy hi] at hread
    cases hread

/-- An instruction with too many digits. -/
theorem overlong_acc {ds : List Char} (hdigits : Numeral.Digits ds)
    (hlong : Numeral.digitLimit < ds.length) : Overlong ("acc ".toList ++ ds) ds.length := by
  have hmnemonic : Opcode.acc.SpelledBy "acc".toList := by decide
  have hnumeral : Numeral.Form ds false ds := .bare hdigits
  have hcut : Cut ("acc ".toList ++ ds) ["acc".toList, ds] :=
    cut_pair_of_space hmnemonic.solid hnumeral.solid
  exact ⟨hcut, hnumeral, Opcode.lowercase_eq_mnemonic_iff.mpr hmnemonic, hlong⟩

/-- A listing of one such line is refused for the digits. -/
theorem Program.read_overlong {count : Nat} (h : Overlong line count)
    (hinner : ∀ c ∈ line, isLineEnd c = false) :
    read (String.ofList (line ++ ['\n'])) = .error (.numeral (.tooManyDigits count)) := by
  have hread : readLine line 1 = .error (.numeral (.tooManyDigits count)) :=
    readLine_of_refusal (.digits h)
  rw [read_eq_error_iff, String.toList_ofList, lines_snoc_newline_of_inner hinner]
  exact readLines_of_not_passes h.not_passes hread []

/-- A listing of one line, which has one digit more in its argument than
a numeral may have. -/
def overlongListing : String :=
  String.ofList ("acc ".toList ++ List.replicate (Numeral.digitLimit + 1) '1' ++ ['\n'])

/-- The error of a listing need not be the error of a line: there is
none for an argument that has too many digits. -/
theorem Program.read_overlongListing :
    ¬((∃ p, read overlongListing = .ok p) ∨ ∃ e, read overlongListing = .error (.line e)) := by
  have hdigits : Numeral.Digits (List.replicate (Numeral.digitLimit + 1) '1') := by
    refine ⟨by simp, fun c hc => ?_⟩
    rw [List.eq_of_mem_replicate hc]
    decide
  have hinner : ∀ c ∈ "acc ".toList ++ List.replicate (Numeral.digitLimit + 1) '1',
      isLineEnd c = false := by
    have hacc : "acc ".toList.all (fun c => !isLineEnd c) = true := by decide
    intro c hc
    rcases List.mem_append.mp hc with hc | hc
    · simpa using List.all_eq_true.mp hacc c hc
    · rw [List.eq_of_mem_replicate hc]
      decide
  have hread : read overlongListing = .error _ :=
    read_overlong (overlong_acc hdigits (by simp)) hinner
  rw [hread]
  rintro (⟨p, hp⟩ | ⟨e, he⟩)
  · cases hp
  · cases he

end AccumulatorMachine
