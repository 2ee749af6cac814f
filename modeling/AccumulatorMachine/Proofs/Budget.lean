import Mathlib.Data.List.Perm.Subperm
import AccumulatorMachine.Proofs.LoopHead
import AccumulatorMachine.Proofs.Printing

/-!
# `AccumulatorMachine.Proofs.Budget`: how many turns are left

The loop of a run has no counter. What bounds it is the number of
addresses of the program that have no mark: `s.budget p`. A turn that
moves sets exactly one of these marks, whatever the instruction does to
the address and the accumulator (`budget_of_turn_moved`). So from any
state with a mark for every address, reachable or not, the machine ends
after at most as many turns as its budget says.

`p.Moves s n t` says that `n` turns that move lead from `s` to `t`. The
budget of `t` is then that of `s` less `n` (`Moves.budget_add`), and
some such turns lead to an end (`exists_moves_ended`).

A run from the first instruction starts with a mark to set for every
instruction. If it sets them all, then it has carried out every
instruction once (`perm_visited`).
-/

set_option autoImplicit false

namespace AccumulatorMachine

/-- How many addresses of the program have no mark. -/
def State.budget (p : Program) (s : State) : Nat := (s.marks.toList.take p.size).count false

/-- Whether some turns that move lead from one state to another; it is
told how many. -/
inductive Program.Moves (p : Program) : State → Nat → State → Prop
  | refl (s : State) : Moves p s 0 s
  | next {s t u : State} {i : Instruction} {n : Nat} (turn : s.turn p = .ok (.moved i t))
      (rest : Moves p t n u) : Moves p s (n + 1) u

/-! ### One turn -/

namespace State

variable {p : Program} {s t : State} {i : Instruction}

/-- A move sets one mark of the program that was not set. -/
theorem budget_advance (hs : p.size ≤ s.marks.size) (hi : p.at? s.pc = some i)
    (hm : ¬s.Marked s.pc) : (s.advance i).budget p + 1 = s.budget p := by
  obtain ⟨h₀, h₁⟩ := Program.exists_at?_iff.mp ⟨i, hi⟩
  have hlen : s.pc.toNat < (s.marks.toList.take p.size).length := by
    rw [List.length_take, Array.length_toList]
    omega
  have hfalse : (s.marks.toList.take p.size)[s.pc.toNat] = false := by
    rw [List.getElem_take, Array.getElem_toList, ← Bool.not_eq_true]
    intro htrue
    refine hm ⟨h₀, ?_⟩
    rw [Array.getElem?_eq_getElem (by omega), htrue]
  have hpos : 0 < (s.marks.toList.take p.size).count false :=
    List.count_pos_iff.mpr (hfalse ▸ List.getElem_mem hlen)
  have hmarks : (s.advance i).marks.toList = s.marks.toList.set s.pc.toNat true :=
    Array.toList_setIfInBounds
  rw [budget, budget, hmarks, List.take_set, List.count_set hlen, hfalse, if_pos (by decide),
    if_neg (by decide)]
  omega

/-- A turn that moves on marks a position that had no mark before, and takes
one away from what is left to mark. -/
theorem budget_of_turn_moved (hs : p.size ≤ s.marks.size)
    (h : s.turn p = .ok (.moved i t)) : t.budget p + 1 = s.budget p := by
  obtain ⟨hi, hm, rfl⟩ := of_turn_moved hs h
  exact budget_advance hs hi hm

/-- No turn adds or takes away marks. -/
theorem size_le_of_turn_moved (hs : p.size ≤ s.marks.size)
    (h : s.turn p = .ok (.moved i t)) : p.size ≤ t.marks.size := by
  obtain ⟨-, -, rfl⟩ := of_turn_moved hs h
  rwa [size_marks_advance]

/-- Before the first turn no address has a mark. -/
theorem budget_initial (p : Program) (a : Int) : (State.initial p.size a).budget p = p.size := by
  simp [budget, initial]

end State

/-! ### All turns -/

namespace Program

variable {p : Program} {s t : State} {n : Nat} {o : Outcome}

namespace Moves

/-- The marks stay as many as there are, so positions of the program stay
within them along a run. -/
theorem size_le (h : p.Moves s n t) (hs : p.size ≤ s.marks.size) : p.size ≤ t.marks.size := by
  induction h with
  | refl s => exact hs
  | next hturn _ ih => exact ih (State.size_le_of_turn_moved hs hturn)

/-- Every turn takes one off the budget. -/
theorem budget_add (h : p.Moves s n t) (hs : p.size ≤ s.marks.size) :
    t.budget p + n = s.budget p := by
  induction h with
  | refl s => rfl
  | next hturn _ ih =>
      have hstep := State.budget_of_turn_moved hs hturn
      have hrest := ih (State.size_le_of_turn_moved hs hturn)
      omega

/-- Turns that lead to an end are the run from there. -/
theorem exists_runFrom (h : p.Moves s n t) (hend : t.turn p = .ok (.ended o)) (index : Nat) :
    ∃ steps, steps.length = n ∧ p.runFrom false index s = pure ⟨steps, o⟩ := by
  induction h generalizing index with
  | refl s => exact ⟨[], rfl, runFrom_of_ended hend false index⟩
  | @next s t u i n hturn _ ih =>
      obtain ⟨steps, hlength, hrun⟩ := ih hend (index + 1)
      refine ⟨Step.between index s i t :: steps, by rw [List.length_cons, hlength], ?_⟩
      rw [runFrom_quiet_of_moved hturn, hrun, map_pure]
      rfl

end Moves

/-- From any state with a mark for every address the machine comes to an
end. -/
theorem exists_moves_ended (hs : p.size ≤ s.marks.size) :
    ∃ n t o, p.Moves s n t ∧ t.turn p = .ok (.ended o) := by
  -- Every move takes one off the budget.
  induction hb : s.budget p generalizing s with
  | zero =>
      obtain ⟨turn, hturn⟩ := State.exists_turn hs
      cases turn with
      | ended o => exact ⟨0, s, o, .refl s, hturn⟩
      | moved i t =>
          have hstep := State.budget_of_turn_moved hs hturn
          omega
  | succ b ih =>
      obtain ⟨turn, hturn⟩ := State.exists_turn hs
      cases turn with
      | ended o => exact ⟨0, s, o, .refl s, hturn⟩
      | moved i t =>
          have hstep := State.budget_of_turn_moved hs hturn
          obtain ⟨n, u, o, hmoves, hend⟩ :=
            ih (State.size_le_of_turn_moved hs hturn) (by omega)
          exact ⟨n + 1, u, o, .next hturn hmoves, hend⟩

/-! ### Runs from the first instruction -/

/-- No position is visited twice: the turn before a second visit ends the
run as a loop. -/
theorem nodup_visited (p : Program) (a : Int) : (p.quietTrace a).visited.Nodup := by
  obtain ⟨final, hhead, -, -⟩ := p.exists_atHead_ended a
  exact hhead.loopInvariant.nodup

/-- A run takes no more steps than there are instructions. -/
theorem length_steps_quietTrace_le (p : Program) (a : Int) :
    (p.quietTrace a).steps.length ≤ p.size := by
  obtain ⟨final, hhead, -, -⟩ := p.exists_atHead_ended a
  rw [← hhead.loopInvariant.count_marks, ← hhead.loopInvariant.size_marks]
  exact Array.count_le_size

/-- A run that takes as many steps as there are instructions has carried
out each of them once. -/
theorem perm_visited {a : Int} (h : (p.quietTrace a).steps.length = p.size) :
    (p.quietTrace a).visited.Perm ((List.range p.size).map Int.ofNat) := by
  have hsub : (p.quietTrace a).visited ⊆ (List.range p.size).map Int.ofNat := by
    intro pc hpc
    obtain ⟨h₀, h₁⟩ := exists_at?_iff.mp (exists_at?_of_mem_visited hpc)
    refine List.mem_map.mpr ⟨pc.toNat, List.mem_range.mpr (by omega), ?_⟩
    exact Int.toNat_of_nonneg h₀
  refine (List.subperm_of_subset (p.nodup_visited a) hsub).perm_of_length_le ?_
  rw [List.length_map, List.length_range, Trace.visited, List.length_map, h]

/-- Take any state with a mark for every address of the program. As long
as the machine moves no turn fails, and every turn that moves takes one
off the number of addresses without a mark. So the machine ends after at
most as many turns as there are such addresses, and that is the run from
the state. From the first instruction there are therefore no more turns
than instructions, whether the run is verbose or not. A run that takes a
step for each instruction has carried out each of them once. -/
theorem ends_within_budget (p : Program) :
    (∀ s : State, p.size ≤ s.marks.size →
      (∀ n t, p.Moves s n t → t.budget p + n = s.budget p
        ∧ ((∃ o, t.turn p = .ok (.ended o))
          ∨ ∃ i u, t.turn p = .ok (.moved i u) ∧ u.budget p + 1 = t.budget p))
      ∧ ∃ n t o, p.Moves s n t ∧ t.turn p = .ok (.ended o) ∧ n ≤ s.budget p
        ∧ ∀ index, ∃ steps, steps.length = n
          ∧ p.runFrom false index s = pure { steps, outcome := o })
    ∧ (∀ a n t, p.Moves (State.initial p.size a) n t → n ≤ p.size)
    ∧ (∀ a workers, ∃ t, (p.trace { initial := a, workers }).ending = .ok t)
    ∧ ∀ settings t, (p.trace settings).ending = .ok t →
        t.steps.length ≤ p.size
        ∧ (t.steps.length = p.size → t.visited.Perm ((List.range p.size).map Int.ofNat)) := by
  refine ⟨fun s hs => ⟨fun n t hmoves => ⟨hmoves.budget_add hs, ?_⟩, ?_⟩, ?_, ?_, ?_⟩
  · -- After any moves there are still enough marks for a turn.
    have hs' := hmoves.size_le hs
    obtain ⟨turn, hturn⟩ := State.exists_turn hs'
    cases turn with
    | ended o => exact .inl ⟨o, hturn⟩
    | moved i u => exact .inr ⟨i, u, hturn, State.budget_of_turn_moved hs' hturn⟩
  · obtain ⟨n, t, o, hmoves, hend⟩ := exists_moves_ended hs
    have hbudget := hmoves.budget_add hs
    exact ⟨n, t, o, hmoves, hend, by omega, hmoves.exists_runFrom hend⟩
  · intro a n t hmoves
    have hbudget := hmoves.budget_add (by simp [State.initial])
    rw [State.budget_initial] at hbudget
    omega
  · exact fun a workers => ⟨p.quietTrace a, by rw [trace_quiet]⟩
  · intro settings t h
    rw [eq_quietTrace_of_ending_trace h]
    exact ⟨p.length_steps_quietTrace_le settings.initial, perm_visited⟩

/-- The demonstration, started in the middle with a mark at `3` and one
mark to spare: eight addresses have no mark, and the machine goes round
until it comes to `3`. -/
theorem ends_within_budget_demonstration :
    ∃ s : State, demonstration.size ≤ s.marks.size ∧ s.pc = 4 ∧ s.budget demonstration = 8
      ∧ ∃ n t o, demonstration.Moves s n t ∧ t.turn demonstration = .ok (.ended o) ∧ n ≤ 8
        ∧ t.budget demonstration + n = 8 := by
  obtain ⟨hstates, -, -, -⟩ := ends_within_budget demonstration
  have hs : demonstration.size
      ≤ (State.mk 4 (-20) #[false, false, false, true, false, false, false, false, false,
          false]).marks.size := by decide
  have hbudget : (State.mk 4 (-20) #[false, false, false, true, false, false, false, false, false,
      false]).budget demonstration = 8 := by decide
  obtain ⟨hmoves, n, t, o, hn, hend, hle, -⟩ := hstates _ hs
  rw [hbudget] at hle
  exact ⟨_, hs, rfl, hbudget, n, t, o, hn, hend, hle, hbudget ▸ (hmoves n t hn).1⟩

end Program

end AccumulatorMachine
