import AccumulatorMachine.Proofs.FirstFault

/-!
# `AccumulatorMachine.Proofs.JoinedListing`: two listings, one after the other

When a line feed and a second listing are put behind a listing, the
first one is read as it is read alone: the line feed ends its last line
or adds a blank one (`readLines_lines_snoc_newline`). The second one is
read with other line numbers. That does not change its instructions, and
the number in an error goes up by the lines before it
(`readLines_add_eq_error`).

`Program.read_append_newline` says what comes of the two.
-/

set_option autoImplicit false

namespace AccumulatorMachine

open Text

/-- The number of lines of a text. -/
def Text.lineCount (text : String) : Nat := (lines text.toList).length

/-- The same error for a line that comes `m` lines later. -/
def LineError.later (m : Nat) (e : LineError) : LineError := { e with number := e.number + m }

/-- The same error in a listing that begins `m` lines later. An error
about a numeral names no line. -/
def ListingError.later (m : Nat) : ListingError → ListingError
  | .line e => .line (e.later m)
  | .numeral e => .numeral e

variable {line : List Char} {ls : List (List Char)} {m n : Nat} {is : List Instruction}
  {e : ListingError}

/-! ### Lines after lines -/

/-- Lines that come after others are read after them, with numbers that
go on. -/
theorem readLines_append (n : Nat) (xs ys : List (List Char)) :
    readLines n (xs ++ ys)
      = (readLines n xs).bind fun is => (readLines (n + xs.length) ys).map (is ++ ·) := by
  induction xs generalizing n with
  | nil =>
      show readLines n ys = (readLines n ys).map ([] ++ ·)
      cases readLines n ys with
      | error e => rfl
      | ok js => rfl
  | cons l xs ih =>
      have hlength : n + (l :: xs).length = n + 1 + xs.length := by
        simp only [List.length_cons]
        omega
      rw [List.cons_append, hlength]
      -- Both sides look at the first line, and it is one of three: blank, an instruction, or
      -- refused. In the first two cases the rest decides; in the third neither side goes on.
      by_cases hblank : Blanks l
      · rw [readLines_of_blanks hblank, readLines_of_blanks hblank, ih]
      · by_cases hspelled : ∃ i : Instruction, i.SpelledBy l
        · obtain ⟨i, hi⟩ := hspelled
          rw [readLines_of_spelledBy hi, readLines_of_spelledBy hi, ih]
          cases readLines (n + 1) xs with
          | error e => rfl
          | ok is =>
              cases readLines (n + 1 + xs.length) ys with
              | error e => rfl
              | ok js => rfl
        · have hfails : ¬Passes l := by
            rintro (h | h)
            · exact hblank h
            · exact hspelled h
          obtain ⟨e, he⟩ := exists_refusal hfails n
          have hread := readLine_of_refusal he
          rw [readLines_of_not_passes hfails hread, readLines_of_not_passes hfails hread]
          rfl

/-- A line feed at the end of a listing does not change what is read. -/
theorem readLines_lines_snoc_newline (n : Nat) (s : List Char) :
    readLines n (lines (s ++ ['\n'])) = readLines n (lines s) := by
  rcases lines_snoc_newline s with h | h
  · rw [h]
  · rw [h, readLines_append, readLines_of_blanks blanks_nil]
    cases readLines n (lines s) with
    | error e => rfl
    | ok is => exact congrArg Except.ok (List.append_nil is)

/-! ### Other line numbers -/

/-- Instructions are read from lines whatever the number of the first
one. -/
theorem readLines_add_eq_ok (h : readLines n ls = .ok is) (m : Nat) :
    readLines (n + m) ls = .ok is :=
  readLines_eq_ok_iff.mpr (readLines_eq_ok_iff.mp h)

/-- The same line is refused further down for the same reason, with the
number that it has there. -/
theorem Refusal.later {number : Int} (h : Refusal line number e) (m : Nat) :
    Refusal line (number + m) (e.later m) := by
  cases h with
  | columns cut count => exact .columns cut count
  | argument cut numeral => exact .argument cut numeral
  | mnemonic cut numeral mnemonic => exact .mnemonic cut numeral mnemonic
  | digits overlong => exact .digits overlong

/-- Lines are refused for the same error if the first one has another
number, as long as all numbers can be written. -/
theorem readLines_add_eq_error (h : readLines n ls = .error e)
    (hlast : n + m + ls.length ≤ Numeral.bound) :
    readLines (n + m) ls = .error (e.later m) := by
  obtain ⟨k, line, hfault, hread⟩ := readLines_eq_error_iff.mp h
  have hk : k < ls.length := (List.getElem?_eq_some_iff.mp hfault.place).1
  have hshort : Numeral.Short (n + k : Nat) := Numeral.short_natCast_iff.mpr (by omega)
  have hshort' : Numeral.Short (n + m + k : Nat) := Numeral.short_natCast_iff.mpr (by omega)
  have hrefusal := ((readLine_eq_error_iff_refusal hshort).mp hread).later m
  refine readLines_of_firstFault hfault ((readLine_eq_error_iff_refusal hshort').mpr ?_)
  have hnumber : ((n + m + k : Nat) : Int) = (n + k : Nat) + m := by omega
  rwa [hnumber]

/-! ### Listings -/

/-- An error that names a line has the number that the line was read
with. -/
theorem number_of_readLine {number : Int} {e : LineError}
    (h : readLine line number = .error (.line e)) : e.number = number := by
  obtain ⟨e₀, hrefusal, hwritten⟩ := readLine_eq_error_iff.mp h
  rcases hrefusal.line_or_overlong with ⟨fault, rfl⟩ | ⟨count, -, rfl⟩
  · by_cases hshort : Numeral.Short number
    · rw [hrefusal.written_eq hshort] at hwritten
      cases hwritten
      rfl
    · rw [ListingError.written_of_not_short hshort] at hwritten
      cases hwritten
  · cases hwritten

/-- The number of the line that a listing is refused for stands in front
of the message. -/
theorem Program.message_of_read {source : String} {e : LineError}
    (h : read source = .error (.line e)) :
    e.message = "line " ++ Numeral.unlimited e.number ++ ": " ++ e.fault.message := by
  obtain ⟨k, line, -, hline⟩ := readLines_eq_error_iff.mp (read_eq_error_iff.mp h)
  have hnumber : e.number = (1 + k : Nat) := number_of_readLine hline
  have hne : e.number ≠ 0 := by omega
  rw [LineError.message, if_neg hne]

/-- The joined text as a list of characters, with the line feed between the
two. -/
theorem toList_append_newline (s₁ s₂ : String) :
    (s₁ ++ "\n" ++ s₂).toList = s₁.toList ++ '\n' :: s₂.toList := by
  rw [String.toList_append, String.toList_append, List.append_assoc]
  rfl

/-- The lines of both listings, read one after the other. -/
theorem readLines_append_newline (s₁ s₂ : String) :
    readLines 1 (lines (s₁ ++ "\n" ++ s₂).toList)
      = (readLines 1 (lines s₁.toList)).bind fun is =>
          (readLines (1 + lineCount (s₁ ++ "\n")) (lines s₂.toList)).map (is ++ ·) := by
  rw [toList_append_newline, lines_append_newline, readLines_append,
    readLines_lines_snoc_newline, lineCount, String.toList_append]
  rfl

/-- The line feed ends a line, so lines of the two texts are never merged.
-/
theorem lineCount_append_newline (s₁ s₂ : String) :
    lineCount (s₁ ++ "\n" ++ s₂) = lineCount (s₁ ++ "\n") + lineCount s₂ := by
  unfold lineCount
  rw [toList_append_newline, lines_append_newline, List.length_append, String.toList_append]
  rfl

namespace Program

variable {s₁ s₂ : String} {p q : Program}

/-- A fault of the first text is found before the second text is looked at.
-/
theorem read_joined_of_error_left (h : read s₁ = .error e) (s₂ : String) :
    read (s₁ ++ "\n" ++ s₂) = .error e := by
  rw [read_eq_error_iff] at h ⊢
  rw [readLines_append_newline, h]
  rfl

/-- A fault of the second text is told with the lines of the first one
counted, as long as that number can be printed. -/
theorem read_joined_of_error_right (h₁ : read s₁ = .ok p) (h₂ : read s₂ = .error e)
    (hlines : lineCount (s₁ ++ "\n" ++ s₂) < Numeral.bound) :
    read (s₁ ++ "\n" ++ s₂) = .error (e.later (lineCount (s₁ ++ "\n"))) := by
  rw [lineCount_append_newline] at hlines
  -- The first line has number one, so the last one is counted by the lines.
  have hlast : 1 + lineCount (s₁ ++ "\n") + lineCount s₂ ≤ Numeral.bound := by omega
  rw [read_eq_ok_iff] at h₁
  rw [read_eq_error_iff] at h₂ ⊢
  rw [readLines_append_newline, h₁, readLines_add_eq_error h₂ hlast]
  rfl

/-- If both are read, then so is the joined text, as the instructions of
both. A blank line that the line feed may add is skipped. -/
theorem read_joined_of_ok (h₁ : read s₁ = .ok p) (h₂ : read s₂ = .ok q) :
    read (s₁ ++ "\n" ++ s₂) = .ok (ofList (p.toList ++ q.toList)) := by
  rw [read_eq_ok_iff] at h₁ h₂ ⊢
  rw [readLines_append_newline, h₁, readLines_add_eq_ok h₂]
  rfl

/-- A listing that a line feed and another one are put behind. If the
first one is refused, so are both, with the same error. If the first one
is read and the second one refused, both are refused with the error of
the second one, and its line has the number that it has after the lines
of the first one, which the message begins with. If both are read, they
are read as the instructions of the first one and then those of the
second.

The lines of the first one are counted with the line feed behind it:
there is one for every line end, where a carriage return before a line
feed does not count. -/
theorem read_append_newline (s₁ s₂ : String) :
    (∀ e, read s₁ = .error e → read (s₁ ++ "\n" ++ s₂) = .error e)
    ∧ (∀ p, read s₁ = .ok p → lineCount (s₁ ++ "\n" ++ s₂) < Numeral.bound →
        (∀ e, read s₂ = .error (.line e) →
          read (s₁ ++ "\n" ++ s₂) = .error (.line (e.later (lineCount (s₁ ++ "\n"))))
          ∧ e.message = "line " ++ Numeral.unlimited e.number ++ ": " ++ e.fault.message
          ∧ (e.later (lineCount (s₁ ++ "\n"))).message
            = "line " ++ Numeral.unlimited (e.number + lineCount (s₁ ++ "\n")) ++ ": "
              ++ e.fault.message)
        ∧ ∀ e, read s₂ = .error (.numeral e) →
          read (s₁ ++ "\n" ++ s₂) = .error (.numeral e))
    ∧ (∀ p q, read s₁ = .ok p → read s₂ = .ok q →
        read (s₁ ++ "\n" ++ s₂) = .ok (ofList (p.toList ++ q.toList)))
    ∧ lineCount (s₁ ++ "\n") + pairs (s₁ ++ "\n").toList
        = (s₁ ++ "\n").toList.countP isLineEnd := by
  refine ⟨?_, ?_, ?_, ?_⟩
  · intro e he
    exact read_joined_of_error_left he s₂
  · intro p hp hlines
    refine ⟨?_, ?_⟩
    · intro e he
      have hjoined := read_joined_of_error_right hp he hlines
      exact ⟨hjoined, message_of_read he, message_of_read hjoined⟩
    · intro e he
      exact read_joined_of_error_right hp he hlines
  · intro p q hp hq
    exact read_joined_of_ok hp hq
  · have hlast : (s₁ ++ "\n").toList.getLast? = some '\n' := by simp
    have hcount := length_lines (s₁ ++ "\n").toList
    rw [hlast] at hcount
    exact hcount

/-- A carriage return before the line feed is one line end with it, so
there are two lines before the second listing, a blank one among them. -/
theorem read_append_newline_demonstration :
    lineCount ("\u2028nop -0\r" ++ "\n") = 2
      ∧ read ("\u2028nop -0\r" ++ "\n" ++ "jmp 1\nacc")
        = .error (.line ⟨.columns "acc".toList, 4, "acc".toList⟩)
      ∧ read ("\u2028nop -0\r" ++ "\n" ++ "jmp 1") = .ok (ofList [⟨.nop, 0⟩, ⟨.jmp, 1⟩]) := by
  have hcount : lineCount ("\u2028nop -0\r" ++ "\n") = 2 := by decide +kernel
  have hfirst : read "\u2028nop -0\r" = .ok (ofList [⟨.nop, 0⟩]) := by decide +kernel
  have hrefused : read "jmp 1\nacc" = .error (.line ⟨.columns "acc".toList, 2, "acc".toList⟩) := by
    decide +kernel
  have hread : read "jmp 1" = .ok (ofList [⟨.jmp, 1⟩]) := by decide +kernel
  obtain ⟨-, hlater, -, -⟩ := read_append_newline "\u2028nop -0\r" "jmp 1\nacc"
  obtain ⟨-, -, hboth, -⟩ := read_append_newline "\u2028nop -0\r" "jmp 1"
  obtain ⟨hline, -⟩ := hlater _ hfirst (by decide +kernel)
  obtain ⟨herror, -, -⟩ := hline _ hrefused
  rw [hcount] at herror
  exact ⟨hcount, herror, hboth _ _ hfirst hread⟩

end Program

end AccumulatorMachine
