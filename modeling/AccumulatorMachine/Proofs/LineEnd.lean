import AccumulatorMachine.Text.Line

/-!
# `AccumulatorMachine.Proofs.LineEnd`: the lines of a text and of a joined one

A text that is cut right after a line feed has the lines of its two
parts (`lines_append_newline`). What the line feed does to the first
part depends on where that ends: within a line or at a carriage return
it is the end of the last line, and otherwise it is a blank line of its
own (`lines_snoc_newline`).

`length_lines` counts the lines: there is one for every character that
ends a line, less one for every carriage return that stands before a
line feed, and one more if the text does not end at a line end.
-/

set_option autoImplicit false

namespace AccumulatorMachine.Text

variable {c : Char} {s t l : List Char}

/-! ### One character in front -/

/-- Whether a character and the one after it are a line end together. -/
def BeginsPair (c : Char) (t : List Char) : Prop := c = '\r' ∧ t.head? = some '\n'

/-- What is put behind a text makes no pair of its first two characters. -/
theorem not_beginsPair_append (h : ¬BeginsPair c s) (hs : s ≠ []) (t : List Char) :
    ¬BeginsPair c (s ++ t) := by
  cases s with
  | nil => exact absurd rfl hs
  | cons d s => exact h

/-- A line end that is not the first half of a pair closes a line with
nothing on it. -/
theorem lines_cons_of_isLineEnd (h : ¬BeginsPair c t) (hc : isLineEnd c = true) :
    lines (c :: t) = [] :: lines t := by
  rw [lines, if_pos hc]
  rintro u rfl rfl
  exact h ⟨rfl, rfl⟩

/-- Any other character belongs to the line that comes first after it. -/
theorem lines_cons_of_not_isLineEnd (hc : isLineEnd c = false) :
    lines (c :: t) = extendHead c (lines t) := by
  rw [lines, if_neg (by simp [hc])]
  rintro u rfl -
  cases hc

/-- Induction along the characters of a text, where a pair that is one
line end is taken as one. -/
theorem lines_induction {motive : List Char → Prop} (nil : motive [])
    (pair : ∀ t, motive t → motive ('\r' :: '\n' :: t))
    (lineEnd : ∀ c t, ¬BeginsPair c t → isLineEnd c = true → motive t → motive (c :: t))
    (inner : ∀ c t, isLineEnd c = false → motive t → motive (c :: t)) (t : List Char) :
    motive t := by
  induction t using lines.induct with
  | case1 => exact nil
  | case2 t ih => exact pair t ih
  | case3 c t hpair hc ih =>
      refine lineEnd c t (fun h => ?_) hc ih
      obtain ⟨hr, hn⟩ := h
      obtain ⟨u, rfl⟩ := List.head?_eq_some_iff.mp hn
      exact hpair u hr rfl
  | case4 c t hpair hc ih => exact inner c t (by simpa using hc) ih

/-- A text that is not empty has a line. -/
theorem lines_ne_nil (h : t ≠ []) : lines t ≠ [] := by
  induction t using lines_induction with
  | nil => exact absurd rfl h
  | pair t _ => simp [lines]
  | lineEnd c t hpair hc _ => simp [lines_cons_of_isLineEnd hpair hc]
  | inner c t hc _ =>
      rw [lines_cons_of_not_isLineEnd hc]
      exact extendHead_ne_nil c _

/-- What comes after the first run is left alone. -/
theorem extendHead_append {α : Type} {a : α} {runs : List (List α)} (h : runs ≠ [])
    (rest : List (List α)) : extendHead a (runs ++ rest) = extendHead a runs ++ rest := by
  cases runs with
  | nil => exact absurd rfl h
  | cons run runs => rfl

/-- A character that is put in front of the first run begins no other run.
-/
theorem length_extendHead {α : Type} {a : α} {runs : List (List α)} (h : runs ≠ []) :
    (extendHead a runs).length = runs.length := by
  cases runs with
  | nil => exact absurd rfl h
  | cons run runs => rfl

/-! ### Line feeds -/

/-- What a line feed adds to the lines before it, whatever comes after
it: nothing if it ends a line that was begun, and a blank line
otherwise. -/
theorem exists_gap (s : List Char) :
    ∃ gap, (gap = [] ∨ gap = [[]]) ∧ ∀ t, lines (s ++ '\n' :: t) = lines s ++ (gap ++ lines t) := by
  induction s using lines_induction with
  | nil => exact ⟨[[]], .inr rfl, fun t => rfl⟩
  | pair s ih =>
      obtain ⟨gap, hgap, ih⟩ := ih
      refine ⟨gap, hgap, fun t => ?_⟩
      rw [List.cons_append, List.cons_append, lines, lines, ih]
      rfl
  | lineEnd c s hpair hc ih =>
      by_cases hs : s = []
      · subst hs
        by_cases hr : c = '\r'
        · -- The line feed belongs to the carriage return.
          subst hr
          exact ⟨[], .inl rfl, fun t => rfl⟩
        · refine ⟨[[]], .inr rfl, fun t => ?_⟩
          have hnot : ¬BeginsPair c ('\n' :: t) := fun h => hr h.1
          rw [List.cons_append, List.nil_append, lines_cons_of_isLineEnd hnot hc,
            lines_cons_of_isLineEnd hpair hc]
          rfl
      · obtain ⟨gap, hgap, ih⟩ := ih
        refine ⟨gap, hgap, fun t => ?_⟩
        rw [List.cons_append, lines_cons_of_isLineEnd (not_beginsPair_append hpair hs _) hc,
          lines_cons_of_isLineEnd hpair hc, ih]
        rfl
  | inner c s hc ih =>
      by_cases hs : s = []
      · subst hs
        refine ⟨[], .inl rfl, fun t => ?_⟩
        rw [List.cons_append, lines_cons_of_not_isLineEnd hc, lines_cons_of_not_isLineEnd hc]
        rfl
      · obtain ⟨gap, hgap, ih⟩ := ih
        refine ⟨gap, hgap, fun t => ?_⟩
        rw [List.cons_append, lines_cons_of_not_isLineEnd hc, lines_cons_of_not_isLineEnd hc, ih,
          extendHead_append (lines_ne_nil hs)]

/-- A line feed parts a text into lines before it and lines after it. -/
theorem lines_append_newline (s t : List Char) :
    lines (s ++ '\n' :: t) = lines (s ++ ['\n']) ++ lines t := by
  obtain ⟨gap, -, h⟩ := exists_gap s
  have hempty : lines (s ++ ['\n']) = lines s ++ (gap ++ []) := h []
  rw [h, hempty, List.append_nil, List.append_assoc]

/-- A line feed at the end of a text ends its last line, or is a blank
line. -/
theorem lines_snoc_newline (s : List Char) :
    lines (s ++ ['\n']) = lines s ∨ lines (s ++ ['\n']) = lines s ++ [[]] := by
  obtain ⟨gap, hgap, h⟩ := exists_gap s
  rcases hgap with rfl | rfl
  · exact .inl ((h []).trans (List.append_nil _))
  · exact .inr (h [])

/-- A text without a line end is one line, when a line feed ends it. -/
theorem lines_snoc_newline_of_inner (h : ∀ c ∈ l, isLineEnd c = false) :
    lines (l ++ ['\n']) = [l] := by
  induction l with
  | nil => rfl
  | cons c l ih =>
      have hl := ih fun x hx => h x (List.mem_cons_of_mem c hx)
      rw [List.cons_append, lines_cons_of_not_isLineEnd (h c List.mem_cons_self), hl]
      rfl

/-- Lines that are written out with a line feed each are the lines of
the text. -/
theorem lines_flatMap_newline {ls : List (List Char)}
    (h : ∀ l ∈ ls, ∀ c ∈ l, isLineEnd c = false) :
    lines (ls.flatMap (· ++ ['\n'])) = ls := by
  induction ls with
  | nil => rfl
  | cons l ls ih =>
      have hls := ih fun k hk => h k (List.mem_cons_of_mem l hk)
      have hl := lines_snoc_newline_of_inner (h l List.mem_cons_self)
      rw [List.flatMap_cons, List.append_assoc, List.singleton_append, lines_append_newline, hl,
        hls]
      rfl

/-! ### The number of lines -/

/-- How many carriage returns stand before a line feed. -/
def pairs (t : List Char) : Nat := (t.zip t.tail).count ('\r', '\n')

/-- A character that does not begin a pair counts for nothing. -/
theorem pairs_cons (h : ¬BeginsPair c t) : pairs (c :: t) = pairs t := by
  cases t with
  | nil => rfl
  | cons d t =>
      have hne : (c, d) ≠ ('\r', '\n') := by
        intro heq
        cases heq
        exact h ⟨rfl, rfl⟩
      simp [pairs, hne]

/-- The line feed of a pair begins no pair of its own. -/
theorem pairs_pair (t : List Char) : pairs ('\r' :: '\n' :: t) = pairs t + 1 := by
  have hrest : pairs ('\n' :: t) = pairs t := by
    refine pairs_cons ?_
    rintro ⟨h, -⟩
    cases h
  rw [← hrest]
  simp [pairs]

/-- Every character that ends a line ends one of its own, but a line
feed after a carriage return. Text after the last line end is one line
more. -/
theorem length_lines (t : List Char) :
    (lines t).length + pairs t
      = t.countP isLineEnd + (if t.getLast?.any (fun c => !isLineEnd c) then 1 else 0) := by
  induction t using lines_induction with
  | nil => rfl
  | pair t ih =>
      have hr : isLineEnd '\r' = true := by decide
      have hn : isLineEnd '\n' = true := by decide
      rw [pairs_pair, lines, List.countP_cons_of_pos hr, List.countP_cons_of_pos hn]
      -- Whether there is text after the last line end is told by the rest, unless the pair is
      -- the end.
      cases t with
      | nil => simp [lines, pairs, hn]
      | cons d t =>
          simp only [List.getLast?_cons_cons, List.length_cons] at ih ⊢
          omega
  | lineEnd c t hpair hc ih =>
      rw [pairs_cons hpair, lines_cons_of_isLineEnd hpair hc, List.countP_cons_of_pos hc]
      cases t with
      | nil => simp [lines, pairs, hc]
      | cons d t =>
          simp only [List.getLast?_cons_cons, List.length_cons] at ih ⊢
          omega
  | inner c t hc ih =>
      have hpair : ¬BeginsPair c t := by
        rintro ⟨rfl, -⟩
        cases hc
      rw [pairs_cons hpair, lines_cons_of_not_isLineEnd hc, List.countP_cons_of_neg (by simp [hc])]
      cases t with
      | nil => simp [lines, pairs, hc, extendHead]
      | cons d t =>
          rw [length_extendHead (lines_ne_nil (by simp))]
          simpa only [List.getLast?_cons_cons] using ih

end AccumulatorMachine.Text
