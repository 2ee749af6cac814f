import Mathlib.Data.List.Basic
import AccumulatorMachine.Pipeline
import AccumulatorMachine.Proofs.LineEnd

/-!
# `AccumulatorMachine.Proofs.LineTranslation`: listings whose line ends were translated

A listing that comes from a file has its carriage returns translated to
line feeds, and one that comes as a text does not. Both are read as the
same program, or refused with the same error in the same line.

`feedEnds which` translates the line ends of a class, and a carriage
return with the line feed after it as one. The lines stay the same if the
carriage return itself is in the class (`lines_feedEnds`). Otherwise a
line end that was translated could make a pair with a carriage return
before it, and a line would be lost.
-/

set_option autoImplicit false

namespace AccumulatorMachine

namespace Text

/-- Write the line ends of a class as line feeds, and every carriage
return with the line feed after it as one line feed. -/
def feedEnds (which : Char → Bool) : List Char → List Char
  | [] => []
  | '\r' :: '\n' :: rest => '\n' :: feedEnds which rest
  | c :: rest => (if which c then '\n' else c) :: feedEnds which rest

variable {which : Char → Bool} {c : Char} {t : List Char}

/-- Outside a pair the translation takes one character at a time. -/
theorem feedEnds_cons (h : ¬BeginsPair c t) :
    feedEnds which (c :: t) = (if which c then '\n' else c) :: feedEnds which t := by
  rw [feedEnds]
  rintro u rfl rfl
  exact h ⟨rfl, rfl⟩

/-- A file that is read has its carriage returns translated. -/
theorem unifyLineEnds_eq (t : List Char) : unifyLineEnds t = feedEnds (· == '\r') t := by
  induction t using unifyLineEnds.induct with
  | case1 => rfl
  | case2 t ih => rw [unifyLineEnds, feedEnds, ih]
  | case3 t hpair ih =>
      rw [unifyLineEnds, feedEnds, ih]
      · rfl
      · exact fun u _ hu => hpair u hu
      · exact hpair
  | case4 c t hpair hc ih =>
      rw [unifyLineEnds, feedEnds, ih, if_neg (by simpa using hc)]
      · exact hpair
      · exact hpair
      · exact hc

/-- A line feed that is not part of a pair ends a line. -/
theorem lines_cons_newline (t : List Char) : lines ('\n' :: t) = [] :: lines t :=
  lines_cons_of_isLineEnd (fun h => by cases h.1) (by decide)

/-- A translation of line ends, the carriage return among them, leaves
the lines as they are. -/
theorem lines_feedEnds (hends : ∀ c, which c = true → isLineEnd c = true)
    (hreturn : which '\r' = true) (t : List Char) : lines (feedEnds which t) = lines t := by
  induction t using lines_induction with
  | nil => rfl
  | pair t ih => rw [feedEnds, lines_cons_newline, ih, lines]
  | lineEnd c t hpair hc ih =>
      rw [feedEnds_cons hpair, lines_cons_of_isLineEnd hpair hc]
      by_cases hw : which c = true
      · rw [if_pos hw, lines_cons_newline, ih]
      · -- What is not translated is no carriage return, so it begins no pair.
        have hpair' : ¬BeginsPair c (feedEnds which t) := by
          rintro ⟨rfl, -⟩
          exact hw hreturn
        rw [if_neg hw, lines_cons_of_isLineEnd hpair' hc, ih]
  | inner c t hc ih =>
      have hpair : ¬BeginsPair c t := by
        rintro ⟨rfl, -⟩
        cases hc
      have hw : ¬which c = true := fun h => by simp [hends c h] at hc
      rw [feedEnds_cons hpair, if_neg hw, lines_cons_of_not_isLineEnd hc,
        lines_cons_of_not_isLineEnd hc, ih]

/-- The text of a file has the lines that it had before its carriage returns
were translated. -/
theorem lines_unifyLineEnds (t : List Char) : lines (unifyLineEnds t) = lines t := by
  rw [unifyLineEnds_eq]
  refine lines_feedEnds (fun c hc => ?_) rfl t
  rw [eq_of_beq hc]
  decide

end Text

open Text

namespace Program

variable {s t : List Char}

/-- What is read depends on the lines alone. -/
theorem read_eq_of_lines_eq (h : lines s = lines t) :
    read (String.ofList s) = read (String.ofList t) := by
  rw [read, read, String.toList_ofList, String.toList_ofList, h]

/-- What is logged of a listing depends on the program alone, so loading
depends on no more than reading does. -/
theorem load_eq_of_lines_eq (h : lines s = lines t) :
    load (String.ofList s) = load (String.ofList t) := by
  rw [load, load, read_eq_of_lines_eq h]

/-- What is read does not depend on how lines are ended. It is the same
with the carriage returns translated to line feeds, which is what is done
with the text of a file, and with all line ends translated. So a listing
in a file is read as its text is. -/
theorem read_translated (bytesOf : String → Except FileFault (List UInt8)) (file : String) :
    (∀ t, read (String.ofList (unifyLineEnds t)) = read (String.ofList t))
    ∧ (∀ t, read (String.ofList (feedEnds isLineEnd t)) = read (String.ofList t))
    ∧ ∀ bytes t, '\x00' ∉ (FileName.normal file).toList →
        bytesOf (FileName.normal file) = .ok bytes → decodeUtf8 bytes = .ok t →
        textOfFile bytesOf file >>= load
          = Transcript.log (.reading (FileName.normal file))
              >>= fun _ => load (String.ofList t) := by
  refine ⟨?_, ?_, ?_⟩
  · intro t
    exact read_eq_of_lines_eq (lines_unifyLineEnds t)
  · intro t
    exact read_eq_of_lines_eq (lines_feedEnds (fun _ => id) (by decide) t)
  · intro bytes t hname hbytes hdecode
    have htext : textOfFile bytesOf file
        = Transcript.log (.reading (FileName.normal file)) >>= fun _ =>
            pure (String.ofList (unifyLineEnds t)) := by
      simp [textOfFile, hname, hbytes, hdecode, Transcript.ofExcept]
    rw [htext, bind_assoc]
    simp only [pure_bind, load_eq_of_lines_eq (lines_unifyLineEnds t)]

/-- The line that is refused has the number five with every translation:
the first carriage return ends a line of its own, and so does the one
behind the line feed. -/
theorem read_translated_demonstration :
    unifyLineEnds "nop +0\r\r\n\n\rjmp\u2028".toList = "nop +0\n\n\n\njmp\u2028".toList
      ∧ feedEnds isLineEnd "nop +0\r\r\n\n\rjmp\u2028".toList = "nop +0\n\n\n\njmp\n".toList
      ∧ read "nop +0\n\n\n\njmp\u2028"
          = .error (.line ⟨.columns "jmp".toList, 5, "jmp".toList⟩)
      ∧ read "nop +0\n\n\n\njmp\n" = .error (.line ⟨.columns "jmp".toList, 5, "jmp".toList⟩)
      ∧ (textOfFile (fun _ => .ok "nop +0\r\r\n\n\rjmp\u2028".toUTF8.toList) "listing"
            >>= load).ending
          = .error (ListingError.line ⟨.columns "jmp".toList, 5, "jmp".toList⟩).failure := by
  have hunify : unifyLineEnds "nop +0\r\r\n\n\rjmp\u2028".toList
      = "nop +0\n\n\n\njmp\u2028".toList := by decide
  have hfeed : feedEnds isLineEnd "nop +0\r\r\n\n\rjmp\u2028".toList
      = "nop +0\n\n\n\njmp\n".toList := by decide
  have hread : read "nop +0\r\r\n\n\rjmp\u2028"
      = .error (.line ⟨.columns "jmp".toList, 5, "jmp".toList⟩) := by
    decide +kernel
  have hname : '\x00' ∉ (FileName.normal "listing").toList := by decide +kernel
  have hdecode : decodeUtf8 "nop +0\r\r\n\n\rjmp\u2028".toUTF8.toList
      = .ok "nop +0\r\r\n\n\rjmp\u2028".toList := by
    decide +kernel
  obtain ⟨hunified, hfed, hfile⟩ := read_translated
    (fun _ => .ok "nop +0\r\r\n\n\rjmp\u2028".toUTF8.toList) "listing"
  refine ⟨hunify, hfeed, ?_, ?_, ?_⟩
  · have h := hunified "nop +0\r\r\n\n\rjmp\u2028".toList
    rw [hunify] at h
    exact h.trans hread
  · have h := hfed "nop +0\r\r\n\n\rjmp\u2028".toList
    rw [hfeed] at h
    exact h.trans hread
  · rw [hfile _ _ hname rfl hdecode, String.ofList_toList, Transcript.bind_of_ok rfl, load, hread]
    rfl

end Program

end AccumulatorMachine
