import AccumulatorMachine.Pipeline
import AccumulatorMachine.Proofs.Ending
import AccumulatorMachine.Proofs.Numeral

/-!
# `AccumulatorMachine.Proofs.Shown`: the integers that a text shows

A text is put together from integers and fixed words. It can be written
exactly if all of its integers can, so all that matters of a text is
which integers it shows. `Shows t numbers` says so of a text that is to
be written, and `x.Yields numbers a` of a computation that ends with `a`
and prints such texts on the way.

Both go through sequences: what is shown by two computations is shown by
one after the other (`Shows.bind`, `Yields.bind`). So the integers that
are shown by an instruction, a step, an outcome, an attempt, a program,
the statistics and a document are read off the definitions of their
texts.
-/

set_option autoImplicit false

namespace AccumulatorMachine

variable {α β : Type} {numbers ns ms : List Int}

namespace Numeral

/-- Whether all integers can be written. -/
def AllShort (numbers : List Int) : Prop := ∀ n ∈ numbers, Short n

instance (numbers : List Int) : Decidable (AllShort numbers) :=
  inferInstanceAs (Decidable (∀ n ∈ numbers, Short n))

/-- Without integers there is none that is too long. -/
@[simp]
theorem allShort_nil : AllShort [] := by simp [AllShort]

/-- All are short if the first one is and the others are. -/
@[simp]
theorem allShort_cons {n : Int} : AllShort (n :: ns) ↔ Short n ∧ AllShort ns := List.forall_mem_cons

/-- Two rows are short together if each of them is. -/
@[simp]
theorem allShort_append : AllShort (ns ++ ms) ↔ AllShort ns ∧ AllShort ms := List.forall_mem_append

/-- Of integers that are left out nothing is to be written. -/
theorem allShort_ite_nil {q : Prop} [Decidable q] :
    AllShort (if q then ns else []) ↔ (q → AllShort ns) := by
  split
  · simp [*]
  · simp [*]

/-- Of two rows of integers the first one that holds an integer that is
too long is told. -/
theorem not_allShort_append_iff :
    ¬AllShort (ns ++ ms) ↔ ¬AllShort ns ∨ AllShort ns ∧ ¬AllShort ms := by
  rw [allShort_append]
  by_cases h : AllShort ns
  · simp [h]
  · simp [h]

end Numeral

open Numeral (AllShort)

/-! ### Texts -/

/-- Whether a text shows some integers: it is written if all of them can
be, and refused if one of them is too long. -/
structure Shows (t : Except NumeralError α) (numbers : List Int) : Prop where
  written : AllShort numbers → ∃ a, t = .ok a
  refused : ¬AllShort numbers → t = .error .tooLarge

namespace Shows

/-- What is written in any case shows no integer. -/
theorem pure (a : α) : Shows (pure a : Except NumeralError α) [] where
  written _ := ⟨a, rfl⟩
  refused h := absurd Numeral.allShort_nil h

/-- What is shown first comes first. -/
theorem bind {t : Except NumeralError α} {f : α → Except NumeralError β} (ht : Shows t ns)
    (hf : ∀ a, Shows (f a) ms) : Shows (t >>= f) (ns ++ ms) where
  written h := by
    rw [Numeral.allShort_append] at h
    obtain ⟨a, rfl⟩ := ht.written h.1
    exact (hf a).written h.2
  refused h := by
    rcases Numeral.not_allShort_append_iff.mp h with hfirst | ⟨hfirst, hsecond⟩
    · rw [ht.refused hfirst]
      rfl
    · obtain ⟨a, rfl⟩ := ht.written hfirst
      exact (hf a).refused hsecond

/-- The digits of an integer show it and nothing else. -/
theorem plain (n : Int) : Shows (Numeral.plain n) [n] where
  written h := by
    have hfits : Numeral.fits n = true := Numeral.fits_iff.mpr (h n (List.mem_singleton_self n))
    exact ⟨_, by rw [Numeral.plain, if_pos hfits]⟩
  refused h := by
    have hfits : ¬Numeral.fits n = true := by simpa [Numeral.fits_iff] using h
    rw [Numeral.plain, if_neg hfits]

/-- So do its digits with a sign in any case. -/
theorem signed (n : Int) : Shows (Numeral.signed n) [n] where
  written h := ⟨_, Numeral.signed_of_short (h n (List.mem_singleton_self n))⟩
  refused h := Numeral.signed_of_not_short (by simpa using h)

/-- Texts one after the other show what each of them shows. -/
theorem mapM {f : α → Except NumeralError β} {g : α → List Int} (h : ∀ a, Shows (f a) (g a))
    (l : List α) : Shows (l.mapM f) (l.flatMap g) := by
  induction l with
  | nil => exact .pure []
  | cons a l ih =>
      rw [List.mapM_cons, List.flatMap_cons, ← List.append_nil (l.flatMap g)]
      exact (h a).bind fun b => ih.bind fun bs => .pure (b :: bs)

end Shows

/-! ### Computations that print -/

namespace Transcript

/-- Whether a computation ends with `a` if some integers can be written,
and fails for the digits of one of them otherwise. -/
structure Yields (x : Transcript α) (numbers : List Int) (a : α) : Prop where
  ok : AllShort numbers → x.ending = .ok a
  error : ¬AllShort numbers → x.ending = .error (.numeral .tooLarge)

namespace Yields

variable {x : Transcript α} {a : α} {b : β}

/-- A computation that has a value in any case shows no integer. -/
theorem of_ending (h : x.ending = .ok a) : x.Yields [] a where
  ok _ := h
  error hlong := absurd Numeral.allShort_nil hlong

/-- A value is the one that is yielded. -/
theorem eq_of_ending (h : x.Yields numbers a) {a' : α} (hx : x.ending = .ok a') : a' = a := by
  by_cases hshort : AllShort numbers
  · exact Except.ok.inj (hx.symm.trans (h.ok hshort))
  · cases hx.symm.trans (h.error hshort)

/-- There is a value if all integers can be written, and only then. -/
theorem exists_ending_iff (h : x.Yields numbers a) :
    (∃ a', x.ending = .ok a') ↔ AllShort numbers := by
  refine ⟨fun ⟨a', hx⟩ => ?_, fun hshort => ⟨a, h.ok hshort⟩⟩
  by_cases hshort : AllShort numbers
  · exact hshort
  · cases hx.symm.trans (h.error hshort)

/-- The second computation prints after the first. -/
theorem bind {f : α → Transcript β} (hx : x.Yields ns a) (hf : (f a).Yields ms b) :
    (x >>= f).Yields (ns ++ ms) b where
  ok h := by
    rw [Numeral.allShort_append] at h
    rw [ending_bind_of_ok (hx.ok h.1), hf.ok h.2]
  error h := by
    rcases Numeral.not_allShort_append_iff.mp h with hfirst | ⟨hfirst, hsecond⟩
    · rw [bind_of_error (hx.error hfirst)]
    · rw [ending_bind_of_ok (hx.ok hfirst), hf.error hsecond]

/-- An entry for the log shows nothing. -/
theorem log_bind (entry : LogEntry) (hx : x.Yields numbers a) :
    (log entry >>= fun _ => x).Yields numbers a where
  ok h := hx.ok h
  error h := hx.error h

/-- A line whose text is known shows nothing. -/
theorem printLine_bind (line : String) (hx : x.Yields numbers a) :
    (printLine line >>= fun _ => x).Yields numbers a where
  ok h := hx.ok h
  error h := hx.error h

/-- What is made of the value shows nothing. -/
theorem map (hx : x.Yields numbers a) (f : α → β) : (f <$> x).Yields numbers (f a) where
  ok h := by
    rw [ending_map, hx.ok h]
    rfl
  error h := by
    rw [ending_map, hx.error h]
    rfl

/-- What is made of a value at the end shows nothing. -/
theorem bind_pure (hx : x.Yields numbers a) (f : α → β) :
    (x >>= fun a => Pure.pure (f a)).Yields numbers (f a) := by
  have h := hx.bind (f := fun a => Pure.pure (f a)) (of_ending rfl)
  rwa [List.append_nil] at h

/-- A text that is made for a second computation shows its integers
first. -/
theorem text_bind {t : Except NumeralError String} {f : String → Transcript β}
    (ht : Shows t ns) (hf : ∀ s, (f s).Yields ms b) : (text t >>= f).Yields (ns ++ ms) b where
  ok h := by
    rw [Numeral.allShort_append] at h
    obtain ⟨s, rfl⟩ := ht.written h.1
    exact (hf s).ok h.2
  error h := by
    rcases Numeral.not_allShort_append_iff.mp h with hfirst | ⟨hfirst, hsecond⟩
    · rw [ht.refused hfirst]
      rfl
    · obtain ⟨s, rfl⟩ := ht.written hfirst
      exact (hf s).error hsecond

/-- Two parts that are left out together. -/
theorem ite_nil_append_ite_nil (q : Prop) [Decidable q] (ns ms : List Int) :
    (if q then ns else []) ++ (if q then ms else []) = if q then ns ++ ms else [] := by
  split
  · rfl
  · rfl

/-- A text that is made for a computation that has a value in any case. -/
theorem text_bind_of_ending {t : Except NumeralError String} {f : String → Transcript β}
    (ht : Shows t numbers) (hf : ∀ s, (f s).ending = .ok b) : (text t >>= f).Yields numbers b := by
  have h := text_bind ht fun s => of_ending (hf s)
  rwa [List.append_nil] at h

/-- A computation that is left out shows nothing. -/
theorem ite_bind {q : Prop} [Decidable q] {x : Transcript Unit} {f : Unit → Transcript β}
    (hx : x.Yields ns ()) (hf : (f ()).Yields ms b) :
    (if q then x >>= f else f ()).Yields ((if q then ns else []) ++ ms) b := by
  split
  · exact hx.bind hf
  · exact hf

/-- Computations one after the other show what each of them shows. -/
theorem forM {f : α → Transcript Unit} {g : α → List Int} (h : ∀ a, (f a).Yields (g a) ())
    (l : List α) : (l.forM f).Yields (l.flatMap g) () := by
  induction l with
  | nil => exact of_ending rfl
  | cons a l ih => exact (h a).bind ih

end Yields

end Transcript

/-! ### What the texts show -/

/-- The integer of an outcome. -/
def Outcome.number : Outcome → Int
  | .halted a => a
  | .infiniteLoop a => a
  | .jumpOutOfBounds pc => pc

/-- The integers in the text of a step. -/
def Step.shown (s : Step) : List Int :=
  [s.index, s.pc, s.instruction.argument, s.before, s.after, s.next]

/-- The integers that a verbose run prints: those of its steps, and then
its outcome and the number of its steps. -/
def Trace.shown (t : Trace) : List Int :=
  t.steps.flatMap Step.shown ++ [t.outcome.number, (t.steps.length : Int)]

/-- The integers in the text of an attempt. -/
def Attempt.shown (a : Attempt) : List Int :=
  [a.index, a.replaced.argument, a.replacement.argument, a.outcome.number]

/-- The integers in the text of the result of a search. -/
def Repair.shown : Repair → List Int
  | .repaired index accumulator _ => [index, accumulator]
  | .notFound _ => []

/-- The integers in the numbered form of a program. -/
def Program.shown (p : Program) : List Int :=
  p.toList.zipIdx.flatMap fun entry => [(entry.2 : Int), entry.1.argument]

/-- The integers in the table of a run. -/
def Statistics.shown (s : Statistics) : List Int :=
  [s.sourceLines, s.sourceBytes, s.instructionCount, s.executionSteps, s.repairAttempts]

mutual

/-- The integers of a document. -/
def Document.shown : Document → List Int
  | .absent => []
  | .boolean _ => []
  | .number value => [value]
  | .label _ => []
  | .list entries => Document.shownEntries entries
  | .record fields => Document.shownFields fields

/-- The integers of the entries of a list. -/
def Document.shownEntries : List Document → List Int
  | [] => []
  | entry :: rest => entry.shown ++ Document.shownEntries rest

/-- The integers of the fields of a record. -/
def Document.shownFields : List (String × Document) → List Int
  | [] => []
  | (_, value) :: rest => value.shown ++ Document.shownFields rest

end

namespace Shows

/-- An instruction shows its argument, and its opcode is a fixed word. -/
theorem text_instruction (i : Instruction) : Shows i.text [i.argument] :=
  (Shows.signed i.argument).bind fun _ => .pure _

/-- An outcome shows its accumulator or the position that was jumped to. -/
theorem text_outcome (o : Outcome) : Shows o.text [o.number] := by
  cases o with
  | halted a => exact ((Shows.plain a).bind fun _ => .pure _)
  | infiniteLoop a => exact ((Shows.plain a).bind fun _ => .pure _)
  | jumpOutOfBounds pc => exact ((Shows.plain pc).bind fun _ => .pure _)

/-- A step shows its integers in the order of its text, and that decides
which of them it fails for. -/
theorem text_step (s : Step) : Shows s.text s.shown :=
  (Shows.plain s.index).bind fun _ => (Shows.plain s.pc).bind fun _ =>
    (text_instruction s.instruction).bind fun _ => (Shows.plain s.before).bind fun _ =>
      (Shows.plain s.after).bind fun _ => (Shows.plain s.next).bind fun _ => .pure _

/-- The last line of a run shows the outcome and the number of steps. -/
theorem closing (t : Trace) :
    Shows t.closing [t.outcome.number, (t.steps.length : Int)] :=
  (text_outcome t.outcome).bind fun _ => (Shows.plain t.steps.length).bind fun _ => .pure _

/-- An attempt shows its address, both instructions and the outcome. -/
theorem text_attempt (a : Attempt) : Shows a.text a.shown :=
  (Shows.plain a.index).bind fun _ => (text_instruction a.replaced).bind fun _ =>
    (text_instruction a.replacement).bind fun _ => (text_outcome a.outcome).bind fun _ => .pure _

/-- A repair shows its address and the accumulator, but not the number of
attempts. -/
theorem text_repair (r : Repair) : Shows r.text r.shown := by
  cases r with
  | repaired index accumulator attempts =>
      exact (Shows.plain index).bind fun _ => (Shows.plain accumulator).bind fun _ => .pure _
  | notFound attempts => exact .pure _

/-- The numbered form of a program shows every address with its argument. -/
theorem numbered (p : Program) : Shows p.numbered p.shown := by
  have hline : ∀ entry : Instruction × Nat,
      Shows (Program.numberedLine entry.2 entry.1) [(entry.2 : Int), entry.1.argument] :=
    fun entry => (Shows.plain entry.2).bind fun _ =>
      (text_instruction entry.1).bind fun _ => .pure _
  have h := (Shows.mapM hline p.toList.zipIdx).bind fun lines => .pure ("\n".intercalate lines)
  rwa [List.append_nil] at h

/-- The table of a run shows its sizes. Its times are written with a fixed
number of decimals, and the digit limit does not apply to them. -/
theorem report (s : Statistics) : Shows s.report s.shown := by
  have hrow : ∀ (stage : String) (ticks size : Int) (kind : String),
      Shows (Statistics.stageRow stage ticks size kind) [size] :=
    fun stage ticks size kind => (Shows.plain size).bind fun _ => .pure _
  exact (Shows.plain s.sourceLines).bind fun _ => (Shows.plain s.sourceBytes).bind fun _ =>
    (hrow _ _ s.instructionCount _).bind fun _ => (hrow _ _ s.executionSteps _).bind fun _ =>
      (hrow _ _ s.repairAttempts _).bind fun _ => .pure _

mutual

/-- A document shows the same integers at any depth: what is added is white
space. The induction goes along the three functions that write it. -/
theorem renderAt (depth : Nat) (d : Document) : Shows (d.renderAt depth) d.shown := by
  cases d with
  | absent => exact .pure _
  | boolean value => exact .pure _
  | number value => exact .plain value
  | label name => exact .pure _
  | list entries =>
      have h := (renderEntries (depth + 1) entries).bind fun parts =>
        .pure (Document.enclose "[" "]" depth parts)
      rwa [List.append_nil] at h
  | record fields =>
      have h := (renderFields (depth + 1) fields).bind fun parts =>
        .pure (Document.enclose "\x7b" "\x7d" depth parts)
      rwa [List.append_nil] at h

/-- Entries of a list are shown one after the other, with commas between
them. -/
theorem renderEntries (depth : Nat) (entries : List Document) :
    Shows (Document.renderEntries depth entries) (Document.shownEntries entries) := by
  cases entries with
  | nil => exact .pure _
  | cons entry rest =>
      rw [Document.shownEntries, ← List.append_nil (Document.shownEntries rest)]
      exact (renderAt depth entry).bind fun _ =>
        (renderEntries depth rest).bind fun _ => .pure _

/-- Fields of a record are shown in the same way, each behind its name. -/
theorem renderFields (depth : Nat) (fields : List (String × Document)) :
    Shows (Document.renderFields depth fields) (Document.shownFields fields) := by
  cases fields with
  | nil => exact .pure _
  | cons field rest =>
      obtain ⟨name, value⟩ := field
      rw [Document.shownFields, ← List.append_nil (Document.shownFields rest)]
      exact (renderAt depth value).bind fun _ =>
        (renderFields depth rest).bind fun _ => .pure _

end

/-- A whole document is one at depth `0`. -/
theorem render (d : Document) : Shows d.render d.shown := renderAt 0 d

end Shows

end AccumulatorMachine
