import AccumulatorMachine.Text.Blank

/-!
# `AccumulatorMachine.Proofs.Column`: how a line is cut into columns

`Cut text cs` says what it means that a text has the columns `cs`: it is
blanks, then a column, then a text that does not go on with the column
and has the other columns, and so on; after the last column there are
blanks alone. `cut_iff` is the statement that `columns` cuts a text in
this way, and that there is no other way to do it.

`cut_pair_iff` spells it out for two columns, which is what a line of a
listing has.
-/

set_option autoImplicit false

namespace AccumulatorMachine.Text

/-- Whether all characters are blank; there may be none. -/
def Blanks (text : List Char) : Prop := ∀ c ∈ text, isBlank c = true

/-- Whether a text can be a column: it has characters, and none of them
is blank. -/
def Solid (text : List Char) : Prop := text ≠ [] ∧ ∀ c ∈ text, isBlank c = false

/-- Whether the character is one of the visible characters of ASCII. -/
def Graphic (c : Char) : Prop := 0x21 ≤ c.toNat ∧ c.toNat ≤ 0x7E

/-- What is visible is not blank. -/
theorem Graphic.isBlank_eq_false {c : Char} (h : Graphic c) : isBlank c = false := by
  obtain ⟨h₀, h₁⟩ := h
  simp [isBlank, isWhiteSpace, CodeRanges.contains, whiteSpaceRanges, separatorRanges]
  omega

/-- The texts that have given columns. -/
inductive Cut : List Char → List (List Char) → Prop
  | blanks {w : List Char} (hw : Blanks w) : Cut w []
  | column {w c rest : List Char} {cs : List (List Char)} (hw : Blanks w) (hc : Solid c)
      (hend : ∀ x ∈ rest.head?, isBlank x = true) (hrest : Cut rest cs) :
      Cut (w ++ c ++ rest) (c :: cs)

variable {text rest w c : List Char} {cs : List (List Char)} {x : Char}

/-- Nothing at all is blank. -/
theorem blanks_nil : Blanks [] := by
  intro x hx
  cases hx

/-- Blanks are put together from the front, as the scanner takes them off.
-/
theorem Blanks.cons (hw : Blanks w) (hx : isBlank x = true) : Blanks (x :: w) := by
  intro y hy
  rcases List.mem_cons.mp hy with rfl | hy
  · exact hx
  · exact hw y hy

/-! ### Columns of a text that was cut -/

/-- A column ends where the text does or in front of a blank, and the test
looks at no more than the next character. -/
theorem endsColumn_iff : endsColumn rest = true ↔ ∀ x ∈ rest.head?, isBlank x = true := by
  cases rest with
  | nil => simp [endsColumn]
  | cons x rest => simp [endsColumn]

/-- Blanks in front belong to no column. -/
theorem columns_append_of_blanks (hw : Blanks w) (rest : List Char) :
    columns (w ++ rest) = columns rest := by
  induction w with
  | nil => rfl
  | cons x w ih =>
      have hx : isBlank x = true := hw x List.mem_cons_self
      simp [columns, hx, ih fun y hy => hw y (List.mem_cons_of_mem x hy)]

/-- A row of characters that are not blank is the first column if it
ends where the column ends. -/
theorem columns_append_of_solid (hc : Solid c) (hend : endsColumn rest = true) :
    columns (c ++ rest) = c :: columns rest := by
  obtain ⟨hne, hsolid⟩ := hc
  induction c with
  | nil => exact absurd rfl hne
  | cons x c ih =>
      have hx : isBlank x = false := hsolid x List.mem_cons_self
      cases c with
      | nil => simp [columns, hx, hend]
      | cons y c =>
          have hy : isBlank y = false := hsolid y (by simp)
          have hopen : endsColumn (y :: c ++ rest) = false := hy
          have hrest := ih (by simp) fun z hz => hsolid z (List.mem_cons_of_mem x hz)
          rw [List.cons_append, columns, hx, hopen, hrest]
          rfl

/-- A text has no other columns than those that it is cut into. -/
theorem Cut.columns_eq (h : Cut text cs) : columns text = cs := by
  induction h with
  | blanks hw =>
      have hnil := columns_append_of_blanks hw []
      rwa [List.append_nil] at hnil
  | column hw hc hend _ ih =>
      rw [List.append_assoc, columns_append_of_blanks hw,
        columns_append_of_solid hc (endsColumn_iff.mpr hend), ih]

/-- A text that has a column is not blank. -/
theorem Cut.not_blanks (h : Cut text (c :: cs)) : ¬Blanks text := by
  intro hblank
  have hnone := (Cut.blanks hblank).columns_eq
  rw [h.columns_eq] at hnone
  cases hnone

/-! ### Cutting a text -/

/-- A blank in front changes no column. -/
theorem Cut.cons_blank (h : Cut rest cs) (hx : isBlank x = true) : Cut (x :: rest) cs := by
  cases h with
  | blanks hw => exact .blanks (hw.cons hx)
  | column hw hc hend hrest => exact .column (hw.cons hx) hc hend hrest

/-- A character that is not blank, in front of a column, belongs to it. -/
theorem Cut.extendHead (h : Cut (x :: rest) cs) (hx : isBlank x = false) {y : Char}
    (hy : isBlank y = false) : Cut (y :: x :: rest) (extendHead y cs) := by
  generalize htext : x :: rest = text at h
  cases h with
  | blanks hw =>
      subst htext
      exact absurd (hw x List.mem_cons_self) (by simp [hx])
  | @column w c tail cs hw hc hend hrest =>
      -- The text begins with `x`, so there is no blank before the column.
      cases w with
      | cons z w =>
          cases htext
          exact absurd (hw x List.mem_cons_self) (by simp [hx])
      | nil =>
          have hsolid : Solid (y :: c) := by
            refine ⟨by simp, fun z hz => ?_⟩
            rcases List.mem_cons.mp hz with rfl | hz
            · exact hy
            · exact hc.2 z hz
          exact .column blanks_nil hsolid hend hrest

/-- Every text is cut into its columns. -/
theorem cut_columns (text : List Char) : Cut text (columns text) := by
  induction text with
  | nil => exact .blanks blanks_nil
  | cons x rest ih =>
      cases hx : isBlank x with
      | true =>
          rw [columns, if_pos hx]
          exact ih.cons_blank hx
      | false =>
          have hsolid : Solid [x] := ⟨by simp, by simp [hx]⟩
          cases hend : endsColumn rest with
          | true =>
              rw [columns, if_neg (by simp [hx]), if_pos hend]
              exact .column blanks_nil hsolid (endsColumn_iff.mp hend) ih
          | false =>
              rw [columns, if_neg (by simp [hx]), if_neg (by simp [hend])]
              cases rest with
              | nil => cases hend
              | cons y rest => exact ih.extendHead hend hx

/-- A text is cut in one way, and `columns` cuts it so. -/
theorem cut_iff : Cut text cs ↔ columns text = cs := by
  constructor
  · exact Cut.columns_eq
  · rintro rfl
    exact cut_columns text

/-! ### Two columns -/

/-- A text has two columns exactly if there are blanks between them, and
nothing else than blanks around them. -/
theorem cut_pair_iff {a b : List Char} :
    Cut text [a, b] ↔ Solid a ∧ Solid b ∧ ∃ w₁ w₂ w₃,
      Blanks w₁ ∧ Blanks w₂ ∧ w₂ ≠ [] ∧ Blanks w₃ ∧ text = w₁ ++ a ++ w₂ ++ b ++ w₃ := by
  constructor
  · intro h
    cases h with
    | @column w₁ a rest cs hw₁ ha hend hrest =>
        cases hrest with
        | @column w₂ b w₃ cs hw₂ hb hend' hrest =>
            cases hrest with
            | blanks hw₃ =>
                -- Without blanks in between the first column would go on.
                have hne : w₂ ≠ [] := by
                  rintro rfl
                  obtain ⟨hbne, hsolid⟩ := hb
                  cases b with
                  | nil => exact hbne rfl
                  | cons x b =>
                      have hx := hend x (by simp)
                      rw [hsolid x List.mem_cons_self] at hx
                      cases hx
                exact ⟨ha, hb, w₁, w₂, w₃, hw₁, hw₂, hne, hw₃, by simp⟩
  · rintro ⟨ha, hb, w₁, w₂, w₃, hw₁, hw₂, hne, hw₃, rfl⟩
    have hlast : Cut (w₂ ++ b ++ w₃) [b] := by
      refine .column hw₂ hb (fun x hx => hw₃ x ?_) (.blanks hw₃)
      exact List.mem_of_mem_head? hx
    have hfirst : Cut (w₁ ++ a ++ (w₂ ++ b ++ w₃)) [a, b] := by
      refine .column hw₁ ha (fun x hx => ?_) hlast
      cases w₂ with
      | nil => exact absurd rfl hne
      | cons y w₂ =>
          cases hx
          exact hw₂ x List.mem_cons_self
    simpa using hfirst

/-- A space between two columns is enough. -/
theorem cut_pair_of_space {a b : List Char} (ha : Solid a) (hb : Solid b) :
    Cut (a ++ ' ' :: b) [a, b] := by
  have hspace : Blanks [' '] := blanks_nil.cons (by decide)
  refine cut_pair_iff.mpr ⟨ha, hb, [], [' '], [], blanks_nil, hspace, by simp, blanks_nil, ?_⟩
  rw [List.append_nil, List.nil_append, List.append_assoc]
  rfl

end AccumulatorMachine.Text
