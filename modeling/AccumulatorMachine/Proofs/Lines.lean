import Mathlib.Data.List.TakeWhile
import AccumulatorMachine.Proofs.Shown

/-!
# `AccumulatorMachine.Proofs.Lines`: the lines that a computation prints

Steps and attempts are printed one a line, two columns in. A line can be
refused for an integer that is too long, and then the computation fails
and prints nothing more. `forM_printIndented` says what is left of a row
of lines: those before the first that is refused.

What a computation writes is a list of entries, and some of them are of
interest at a time: `printed` are the texts that were printed, and
`attempted` the attempts that the log tells of.
-/

set_option autoImplicit false

namespace AccumulatorMachine

open Numeral (AllShort)

variable {α : Type}

namespace Transcript

/-! ### Rows of lines -/

/-- The entry of a line that is printed two columns in. -/
def indented (line : String) : Entry := .printed ("  " ++ line ++ "\n")

/-- Print a text two columns in, on a line of its own. -/
def printIndented (t : Except NumeralError String) : Transcript Unit := do
  printLine ("  " ++ (← text t))

/-- A text is one entry, with its line feed. -/
@[simp]
theorem printIndented_ok (line : String) :
    printIndented (.ok line) = ⟨[indented line], .ok ()⟩ := rfl

/-- A text that cannot be written leaves no entry, not even a part of one.
-/
@[simp]
theorem printIndented_error (e : NumeralError) :
    printIndented (.error e) = ⟨[], .error (.numeral e)⟩ := rfl

/-- A line shows the integers of its text: the two columns in front are
fixed. -/
theorem yields_printIndented {t : Except NumeralError String} {numbers : List Int}
    (h : Shows t numbers) : (printIndented t).Yields numbers () :=
  .text_bind_of_ending h fun _ => rfl

/-- There are as many texts as entries. -/
theorem length_of_mapM_eq_ok {ε β : Type} {f : α → Except ε β} {l : List α} {bs : List β}
    (h : l.mapM f = .ok bs) : bs.length = l.length := by
  induction l generalizing bs with
  | nil =>
      cases h
      rfl
  | cons a l ih =>
      rw [List.mapM_cons] at h
      cases ha : f a with
      | error e =>
          rw [ha] at h
          cases h
      | ok b =>
          cases hl : l.mapM f with
          | error e =>
              rw [ha, hl] at h
              cases h
          | ok rest =>
              rw [ha, hl] at h
              cases h
              rw [List.length_cons, List.length_cons, ih hl]

/-- Every line has some text, if only its end. -/
theorem join_lines_eq_empty_iff {lines : List String} :
    String.join (lines.map fun line => "  " ++ line ++ "\n") = "" ↔ lines = [] := by
  cases lines with
  | nil => exact ⟨fun _ => rfl, fun _ => rfl⟩
  | cons line lines =>
      rw [List.map_cons, String.join_cons]
      simp

section
variable {f : α → Except NumeralError String} {numbersOf : α → List Int}
  (h : ∀ a, Shows (f a) (numbersOf a))
include h

/-- Texts that can be written have lines. -/
theorem exists_lines {l : List α} (hshort : AllShort (l.flatMap numbersOf)) :
    ∃ lines, l.mapM f = .ok lines :=
  (Shows.mapM h l).written hshort

/-- Of a row of lines those before the first that is refused are
printed. If one is refused, that is the end. -/
theorem forM_printIndented (l : List α) :
    ∃ lines, (l.takeWhile fun a => AllShort (numbersOf a)).mapM f = .ok lines
      ∧ (forM l fun a => printIndented (f a))
        = ⟨lines.map indented,
            if AllShort (l.flatMap numbersOf) then .ok () else .error (.numeral .tooLarge)⟩ := by
  induction l with
  | nil => exact ⟨[], rfl, rfl⟩
  | cons a l ih =>
      obtain ⟨lines, hlines, hprint⟩ := ih
      rw [List.forM_cons, List.flatMap_cons]
      by_cases hshort : AllShort (numbersOf a)
      · -- The line is printed, and the rest of the row tells how it ends.
        obtain ⟨line, hline⟩ := (h a).written hshort
        refine ⟨line :: lines, ?_, ?_⟩
        · simp only [List.takeWhile_cons, hshort, decide_true, if_true, List.mapM_cons, hline,
            hlines]
          rfl
        · rw [hline, printIndented_ok, hprint, bind_of_ok rfl]
          simp only [Numeral.allShort_append, hshort, true_and, List.map_cons,
            List.singleton_append]
      · -- The line is refused, and there are no others.
        refine ⟨[], ?_, ?_⟩
        · simp only [List.takeWhile_cons, hshort, decide_false, Bool.false_eq_true, if_false]
          rfl
        · rw [(h a).refused hshort, printIndented_error, bind_of_error rfl]
          simp only [Numeral.allShort_append, hshort, false_and, if_false, List.map_nil]

/-- A row of lines that can all be written is printed. -/
theorem forM_printIndented_of_allShort {l : List α} {lines : List String}
    (hshort : AllShort (l.flatMap numbersOf)) (hlines : l.mapM f = .ok lines) :
    (forM l fun a => printIndented (f a)) = ⟨lines.map indented, .ok ()⟩ := by
  obtain ⟨lines', hlines', hprint⟩ := forM_printIndented h l
  have hall : ∀ a ∈ l, AllShort (numbersOf a) := fun a ha n hn =>
    hshort n (List.mem_flatMap.mpr ⟨a, ha, hn⟩)
  rw [List.takeWhile_eq_self_iff.mpr (by simpa using hall), hlines, Except.ok.injEq] at hlines'
  rw [hprint, if_pos hshort, hlines']

end

end Transcript

/-! ### Entries of one kind -/

namespace Entry

/-- The text of an entry that was printed. -/
def printedText? : Entry → Option String
  | .printed text => some text
  | _ => none

/-- The attempt that an entry of the log tells of: where the swap was
made, and how the changed program ended. -/
def attempt? : Entry → Option (Int × OutcomeRecord)
  | .logged (.attempted index outcome) => some (index, outcome)
  | _ => none

end Entry

namespace Transcript

/-- The texts that were printed, in order. -/
def printed (x : Transcript α) : List String := x.entries.filterMap Entry.printedText?

/-- The attempts that the log tells of, in order. -/
def attempted (x : Transcript α) : List (Int × OutcomeRecord) := x.entries.filterMap Entry.attempt?

/-- Lines are printed as they are. -/
theorem filterMap_printedText?_indented (lines : List String) :
    (lines.map indented).filterMap Entry.printedText?
      = lines.map fun line => "  " ++ line ++ "\n" := by
  rw [List.filterMap_map]
  show lines.filterMap (fun line => some ("  " ++ line ++ "\n")) = _
  rw [List.filterMap_eq_map']

/-- No line is an attempt. -/
theorem filterMap_attempt?_indented (lines : List String) :
    (lines.map indented).filterMap Entry.attempt? = [] := by
  rw [List.filterMap_map]
  exact List.filterMap_eq_nil_iff.mpr fun line _ => rfl

/-- The second computation prints after the first. -/
theorem printed_bind {β : Type} {x : Transcript α} {a : α} (h : x.ending = .ok a)
    (f : α → Transcript β) : (x >>= f).printed = x.printed ++ (f a).printed := by
  rw [bind_of_ok h]
  exact List.filterMap_append

/-- And it makes its attempts after those of the first. -/
theorem attempted_bind {β : Type} {x : Transcript α} {a : α} (h : x.ending = .ok a)
    (f : α → Transcript β) : (x >>= f).attempted = x.attempted ++ (f a).attempted := by
  rw [bind_of_ok h]
  exact List.filterMap_append

/-- All that is printed is the printed texts, one after the other. -/
theorem stdout_eq (x : Transcript α) : x.stdout = String.join x.printed := by
  obtain ⟨entries, ending⟩ := x
  show String.join (entries.map _) = String.join (entries.filterMap Entry.printedText?)
  induction entries with
  | nil => rfl
  | cons entry entries ih =>
      rw [List.map_cons, String.join_cons, ih]
      cases entry with
      | printed text => exact String.join_cons.symm
      | complained text => exact String.empty_append
      | logged entry => exact String.empty_append

end Transcript

end AccumulatorMachine
