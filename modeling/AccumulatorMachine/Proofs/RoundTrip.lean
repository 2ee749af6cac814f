import AccumulatorMachine.Proofs.FirstFault

/-!
# `AccumulatorMachine.Proofs.RoundTrip`: listings that are written and read back

An instruction is written as one line, which spells it
(`Instruction.spelledBy_canonical`), and has no line end within. So the
lines of a written listing are the lines that were written, and each of
them is read as the instruction it was written for.

The limit on digits is met in both directions by the same integers:
`Program.read_listing` says that a program is written exactly if all its
arguments are short enough, and that what is written is read as the
program.
-/

set_option autoImplicit false

namespace AccumulatorMachine

open Text

/-- The mnemonic, a space, and the argument with its sign. -/
def Instruction.canonical (i : Instruction) : List Char :=
  i.opcode.mnemonic.toList ++ ' ' :: Numeral.signedText i.argument

/-- The lines of all instructions, one after the other. -/
def Program.canonicalText (p : Program) : String :=
  String.join (p.toList.map fun i => String.ofList (i.canonical ++ ['\n']))

variable {i : Instruction} {is : List Instruction}

/-! ### One instruction -/

/-- A mnemonic is written in lower case, which is one of the ways to spell
it. -/
theorem Opcode.spelledBy_mnemonic (o : Opcode) : o.SpelledBy o.mnemonic.toList := by
  cases o with
  | acc => decide
  | jmp => decide
  | nop => decide

/-- What is written for an instruction spells it. -/
theorem Instruction.spelledBy_canonical (h : Numeral.Short i.argument) :
    i.SpelledBy i.canonical := by
  have hm := i.opcode.spelledBy_mnemonic
  have ha := Numeral.form_signedText i.argument
  exact Instruction.spelledBy_iff.mpr
    ⟨_, _, _, _, cut_pair_of_space hm.solid ha.solid, hm, ha, h,
      (Numeral.denoted_toDigits i.argument).symm⟩

/-- All line ends are control characters or separators, so no visible ASCII
character is one. -/
theorem Text.Graphic.isLineEnd_eq_false {c : Char} (h : Graphic c) : isLineEnd c = false := by
  obtain ⟨h₀, h₁⟩ := h
  simp [isLineEnd, CodeRanges.contains, lineEndRanges]
  omega

/-- There is no line end in what is written for an instruction. -/
theorem Instruction.isLineEnd_of_mem_canonical {c : Char} (h : c ∈ i.canonical) :
    isLineEnd c = false := by
  rcases List.mem_append.mp h with h | h
  · exact (i.opcode.spelledBy_mnemonic.graphic c h).isLineEnd_eq_false
  · rcases List.mem_cons.mp h with rfl | h
    · decide
    · exact ((Numeral.form_signedText i.argument).graphic c h).isLineEnd_eq_false

/-- The line of an instruction is what the grammar calls its canonical
spelling, with a line feed. -/
theorem Instruction.line_of_short (h : Numeral.Short i.argument) :
    i.line = .ok (String.ofList (i.canonical ++ ['\n'])) := by
  have hjoin : String.ofList (i.canonical ++ ['\n'])
      = i.opcode.mnemonic ++ " " ++ String.ofList (Numeral.signedText i.argument) ++ "\n" := by
    apply String.toList_injective
    simp [canonical]
  rw [line, text, Numeral.signed_of_short h, hjoin]
  rfl

/-- An argument that is too long has no digits to be written with. -/
theorem Instruction.line_of_not_short (h : ¬Numeral.Short i.argument) :
    i.line = .error .tooLarge := by
  rw [line, text, Numeral.signed_of_not_short h]
  rfl

/-! ### Programs -/

/-- Instructions are written line by line. -/
theorem mapM_line_of_short (h : ∀ i ∈ is, Numeral.Short i.argument) :
    is.mapM Instruction.line = .ok (is.map fun i => String.ofList (i.canonical ++ ['\n'])) := by
  induction is with
  | nil => rfl
  | cons i is ih =>
      obtain ⟨hi, his⟩ := List.forall_mem_cons.mp h
      rw [List.mapM_cons, Instruction.line_of_short hi, ih his]
      rfl

/-- One argument that is too long is enough for nothing to be written. -/
theorem mapM_line_of_not_short (h : ∃ i ∈ is, ¬Numeral.Short i.argument) :
    is.mapM Instruction.line = .error .tooLarge := by
  induction is with
  | nil =>
      obtain ⟨i, hi, -⟩ := h
      cases hi
  | cons i is ih =>
      rw [List.mapM_cons]
      by_cases hi : Numeral.Short i.argument
      · have hrest : ∃ j ∈ is, ¬Numeral.Short j.argument := by
          obtain ⟨j, hj, hlong⟩ := h
          rcases List.mem_cons.mp hj with rfl | hj
          · exact absurd hi hlong
          · exact ⟨j, hj, hlong⟩
        rw [Instruction.line_of_short hi, ih hrest]
        rfl
      · rw [Instruction.line_of_not_short hi]
        rfl

/-- The lines of written instructions are read as the instructions. -/
theorem readLines_map_canonical (h : ∀ i ∈ is, Numeral.Short i.argument) (n : Nat) :
    readLines n (is.map Instruction.canonical) = .ok is := by
  induction is generalizing n with
  | nil => rfl
  | cons i is ih =>
      obtain ⟨hi, his⟩ := List.forall_mem_cons.mp h
      rw [List.map_cons, readLines_of_spelledBy (Instruction.spelledBy_canonical hi), ih his]
      rfl

/-- A program whose arguments can all be written has a listing. -/
theorem Program.listing_of_short {p : Program} (h : ∀ i ∈ p.toList, Numeral.Short i.argument) :
    p.listing = .ok p.canonicalText := by
  rw [listing, mapM_line_of_short h]
  rfl

/-- One argument that cannot be written leaves the program without a
listing. -/
theorem Program.listing_of_not_short {p : Program}
    (h : ∃ i ∈ p.toList, ¬Numeral.Short i.argument) : p.listing = .error .tooLarge := by
  rw [listing, mapM_line_of_not_short h]
  rfl

/-- The lines of a listing are the lines that were written. -/
theorem Program.lines_canonicalText (p : Program) :
    lines p.canonicalText.toList = p.toList.map Instruction.canonical := by
  have htext : p.canonicalText.toList
      = (p.toList.map Instruction.canonical).flatMap (· ++ ['\n']) := by
    rw [canonicalText, String.toList_join, List.flatMap_map, List.flatMap_map]
    simp only [String.toList_ofList]
  rw [htext]
  refine lines_flatMap_newline ?_
  intro l hl c hc
  obtain ⟨i, -, rfl⟩ := List.mem_map.mp hl
  exact Instruction.isLineEnd_of_mem_canonical hc

/-- What is written is read back: the lines are those that were written, and
each spells its instruction. -/
theorem Program.read_canonicalText {p : Program}
    (h : ∀ i ∈ p.toList, Numeral.Short i.argument) : read p.canonicalText = .ok p := by
  rw [read_eq_ok_iff, lines_canonicalText]
  exact readLines_map_canonical h 1

/-- A program whose arguments have no more digits than a numeral may
have is read back from its listing, so such programs with the same
listing are the same. A program with a longer argument has no listing. -/
theorem Program.read_listing (p : Program) :
    ((∀ i ∈ p.toList, Numeral.Short i.argument) →
        ∃ text, p.listing = .ok text ∧ read text = .ok p)
    ∧ (∀ q : Program, (∀ i ∈ p.toList, Numeral.Short i.argument) →
        (∀ i ∈ q.toList, Numeral.Short i.argument) → p.listing = q.listing → p = q)
    ∧ ((∃ i ∈ p.toList, ¬Numeral.Short i.argument) → p.listing = .error .tooLarge) := by
  refine ⟨?_, ?_, ?_⟩
  · intro hp
    exact ⟨p.canonicalText, listing_of_short hp, read_canonicalText hp⟩
  · intro q hp hq hlisting
    rw [listing_of_short hp, listing_of_short hq] at hlisting
    have hread : read p.canonicalText = .ok q := by
      rw [Except.ok.inj hlisting]
      exact read_canonicalText hq
    exact Except.ok.inj ((read_canonicalText hp).symm.trans hread)
  · exact listing_of_not_short

/-- The limit is met by the last number that has as many digits, and not
by the next one. -/
theorem Program.read_listing_demonstration :
    (∃ text, (ofList [⟨.nop, 0⟩, ⟨.jmp, (Numeral.bound - 1 : Nat)⟩]).listing = .ok text
        ∧ read text = .ok (ofList [⟨.nop, 0⟩, ⟨.jmp, (Numeral.bound - 1 : Nat)⟩]))
      ∧ (ofList [⟨.acc, (Numeral.bound : Nat)⟩]).listing = .error .tooLarge := by
  have hlast : Numeral.Short (Numeral.bound - 1 : Nat) :=
    Numeral.short_natCast_iff.mpr (Nat.sub_one_lt_of_lt Numeral.bound_pos)
  have hnext : ¬Numeral.Short (Numeral.bound : Nat) := by
    rw [Numeral.short_natCast_iff]
    exact Nat.lt_irrefl _
  obtain ⟨hread, -, -⟩ :=
    read_listing (ofList [⟨.nop, 0⟩, ⟨.jmp, (Numeral.bound - 1 : Nat)⟩])
  obtain ⟨-, -, hrefused⟩ := read_listing (ofList [⟨.acc, (Numeral.bound : Nat)⟩])
  refine ⟨hread ?_, hrefused ⟨_, List.mem_singleton_self _, hnext⟩⟩
  rw [toList_ofList, List.forall_mem_cons, List.forall_mem_singleton]
  exact ⟨by decide, hlast⟩

end AccumulatorMachine
