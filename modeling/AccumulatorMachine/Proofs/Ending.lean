import AccumulatorMachine.Transcript

/-!
# `AccumulatorMachine.Proofs.Ending`: how composed computations end

The ending of a sequence of computations does not depend on what they
write. `ending_bind` says so for two computations,
`ending_bind_eq_ok_iff` takes a value of both apart,
`ending_of_ending_ite` is for a first one that depends on a condition,
and `ending_mapM_of_ok` for one at each entry of a list. A computation
that is known not to fail has a `value`.
-/

set_option autoImplicit false

namespace AccumulatorMachine.Transcript

variable {α β : Type}

/-- A sequence ends as its second computation does, if it is begun. -/
theorem ending_bind (x : Transcript α) (f : α → Transcript β) :
    (x >>= f).ending = x.ending.bind fun a => (f a).ending := by
  cases h : x.ending with
  | ok a => rw [bind_of_ok h]; rfl
  | error e => rw [bind_of_error h]; rfl

/-- After a value the sequence ends as its second computation. -/
theorem ending_bind_of_ok {x : Transcript α} {a : α} (h : x.ending = .ok a)
    (f : α → Transcript β) : (x >>= f).ending = (f a).ending := by
  rw [ending_bind, h]
  rfl

/-- A sequence has a value if both of its computations do. -/
theorem ending_bind_eq_ok_iff {x : Transcript α} {f : α → Transcript β} {b : β} :
    (x >>= f).ending = .ok b ↔ ∃ a, x.ending = .ok a ∧ (f a).ending = .ok b := by
  rw [ending_bind]
  cases hx : x.ending with
  | error e => simp [Except.bind]
  | ok a => simp [Except.bind]

/-- What follows on a computation that is left out or not has the value
of both. -/
theorem ending_of_ending_ite {q : Prop} [Decidable q] {x : Transcript Unit}
    {f : Unit → Transcript β} {b : β} (h : (if q then x >>= f else f ()).ending = .ok b) :
    (f ()).ending = .ok b := by
  split at h
  · obtain ⟨_, -, hf⟩ := ending_bind_eq_ok_iff.mp h
    exact hf
  · exact h

/-- Computations that do not fail, one for each entry of a list, have
the list of their values. -/
theorem ending_mapM_of_ok {f : α → Transcript β} {g : α → β} {l : List α}
    (h : ∀ a ∈ l, (f a).ending = .ok (g a)) : (l.mapM f).ending = .ok (l.map g) := by
  induction l with
  | nil => rfl
  | cons a l ih =>
      have hrest := ih fun b hb => h b (List.mem_cons_of_mem a hb)
      rw [List.mapM_cons, ending_bind_of_ok (h a List.mem_cons_self),
        ending_bind_of_ok hrest]
      rfl

/-- What they write is what each of them writes, in order. -/
theorem entries_mapM_of_ok {f : α → Transcript β} {g : α → β} {l : List α}
    (h : ∀ a ∈ l, (f a).ending = .ok (g a)) :
    (l.mapM f).entries = l.flatMap fun a => (f a).entries := by
  induction l with
  | nil => rfl
  | cons a l ih =>
      have hl : ∀ b ∈ l, (f b).ending = .ok (g b) := fun b hb => h b (List.mem_cons_of_mem a hb)
      rw [List.mapM_cons, List.flatMap_cons, bind_of_ok (h a List.mem_cons_self),
        bind_of_ok (ending_mapM_of_ok hl), ih hl]
      show (f a).entries ++ (_ ++ []) = _
      rw [List.append_nil]

/-- The value of a computation that does not fail. -/
def value (x : Transcript α) (h : ∃ a, x.ending = .ok a) : α :=
  match hx : x.ending with
  | .ok a => a
  | .error e => absurd h (by simp [hx])

/-- The value of a computation that has one is the one it ends with. -/
theorem value_eq {x : Transcript α} {a : α} (ha : x.ending = .ok a)
    (h : ∃ a, x.ending = .ok a) : x.value h = a := by
  unfold value
  split
  · rename_i b hb
    exact Except.ok.inj (hb.symm.trans ha)
  · rename_i e he
    cases he.symm.trans ha

end AccumulatorMachine.Transcript
