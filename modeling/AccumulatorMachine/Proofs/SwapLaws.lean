import AccumulatorMachine.Proofs.PlaceFromEnd
import AccumulatorMachine.Proofs.Search

/-!
# `AccumulatorMachine.Proofs.SwapLaws`: how swaps at addresses combine

`p.SwappedAt i q` says place by place what a swap at `i` does, and
leaves one program for `q` (`swappedAt_iff`). So `toggle`, which cuts the
program in two, loses no instruction and has none twice.

The laws are those of `swapAt`: a second swap at the same address undoes
the first one, swaps at two addresses can be made in either order, and
there is as much to swap afterwards as before. A swap changes the program
exactly at the candidates.
-/

set_option autoImplicit false

namespace AccumulatorMachine

namespace Program

variable {p q : Program} {x : Instruction} {i j : Nat}

/-- Whether `q` has the instructions of `p`, but for a `jmp` in place of
a `nop` at `i` or the other way round. -/
structure SwappedAt (p : Program) (i : Nat) (q : Program) : Prop where
  size : q.size = p.size
  elsewhere : ∀ k : Nat, k < p.size → k ≠ i → q.get k = p.get k
  jmp : ∀ n, p.get i = .ok ⟨.jmp, n⟩ → q.get i = .ok ⟨.nop, n⟩
  nop : ∀ n, p.get i = .ok ⟨.nop, n⟩ → q.get i = .ok ⟨.jmp, n⟩
  acc : ∀ n, p.get i = .ok ⟨.acc, n⟩ → q.get i = .ok ⟨.acc, n⟩

/-! ### Place by place -/

/-- Counted from the front, places are addresses, so access agrees with the
list of instructions. -/
theorem get_natCast_eq_ok_iff : p.get i = .ok x ↔ p.toList[i]? = some x := by
  constructor
  · intro h
    obtain ⟨⟨-, hlt⟩, hx⟩ := get_eq_ok_iff.mp h
    rwa [addressOf_of_nonneg (Int.natCast_nonneg i) hlt, Int.toNat_natCast] at hx
  · exact get_natCast_eq_ok

/-- There is an instruction at every address before the end. -/
theorem exists_get_of_lt (h : i < p.size) : ∃ x, p.get i = .ok x ∧ p.toList[i]? = some x := by
  have hx := List.getElem?_eq_getElem (show i < p.toList.length by rwa [length_toList])
  exact ⟨_, get_natCast_eq_ok hx, hx⟩

/-- At the place of the swap the instruction is toggled. -/
theorem get_swapAt_self (h : p.get i = .ok x) : (p.swapAt i).get i = .ok x.toggled :=
  get_eq_ok (at?_swapAt_self (get_natCast_eq_ok_iff.mp h))

/-- At any other place it is the one from before. -/
theorem get_swapAt_of_ne (hj : j < p.size) (h : j ≠ i) : (p.swapAt i).get j = p.get j := by
  obtain ⟨x, hx, hget⟩ := exists_get_of_lt hj
  rw [hx, get_natCast_eq_ok_iff, toList_swapAt, List.getElem?_modify_ne _ _ h.symm, hget]

/-- The swapped program is as it is told, place by place. -/
theorem swappedAt_swapAt (p : Program) (i : Nat) : p.SwappedAt i (p.swapAt i) where
  size := size_swapAt p i
  elsewhere := fun _ hk h => get_swapAt_of_ne hk h
  jmp := fun _ h => get_swapAt_self h
  nop := fun _ h => get_swapAt_self h
  acc := fun _ h => get_swapAt_self h

/-- At the address itself, every opcode leaves one instruction. -/
theorem SwappedAt.get_self (h : p.SwappedAt i q) (hx : p.get i = .ok x) :
    q.get i = .ok x.toggled := by
  obtain ⟨opcode, n⟩ := x
  cases opcode with
  | acc => exact h.acc n hx
  | jmp => exact h.jmp n hx
  | nop => exact h.nop n hx

/-- Only the swapped program is as it is told. -/
theorem swappedAt_iff (hi : i < p.size) : p.SwappedAt i q ↔ q = p.swapAt i := by
  constructor
  · intro h
    apply ext_toList
    refine List.ext_getElem? fun k => ?_
    -- Within the program the structure tells the instruction, and behind its end there is none.
    by_cases hk : k < p.size
    · obtain ⟨x, hx, -⟩ := exists_get_of_lt (p := p.swapAt i) (by rwa [size_swapAt])
      have hq : q.get k = .ok x := by
        by_cases hki : k = i
        · subst hki
          obtain ⟨y, hy, -⟩ := exists_get_of_lt hk
          rw [h.get_self hy, ← hx, get_swapAt_self hy]
        · rw [h.elsewhere k hk hki, ← hx, get_swapAt_of_ne hk hki]
      rw [get_natCast_eq_ok_iff.mp hx, get_natCast_eq_ok_iff.mp hq]
    · have hnone : ∀ r : Program, r.size = p.size → r.toList[k]? = none := by
        intro r hr
        rw [List.getElem?_eq_none_iff, length_toList, hr]
        exact Nat.le_of_not_lt hk
      rw [hnone q h.size, hnone _ (size_swapAt p i)]
  · rintro rfl
    exact swappedAt_swapAt p i

/-- A swap within the program succeeds, also where there is an addition,
which it leaves as it is. -/
theorem toggle_of_lt (hi : i < p.size) : p.toggle i = .ok (p.swapAt i) := by
  obtain ⟨x, -, hx⟩ := exists_get_of_lt hi
  exact toggle_eq_ok hx

/-- So the result of a swap is told by `SwappedAt`, and by that alone. -/
theorem toggle_eq_ok_iff (hi : i < p.size) : p.toggle i = .ok q ↔ p.SwappedAt i q := by
  rw [toggle_of_lt hi, swappedAt_iff hi, Except.ok.injEq, eq_comm]

/-! ### Two swaps -/

/-- Two swaps at one address undo each other. -/
@[simp]
theorem swapAt_swapAt_self (p : Program) (i : Nat) : (p.swapAt i).swapAt i = p := by
  have htoggled : Instruction.toggled ∘ Instruction.toggled = id :=
    funext Instruction.toggled_toggled
  apply ext_toList
  rw [toList_swapAt, toList_swapAt, List.modify_modify_eq, htoggled, List.modify_id]

/-- Swaps can be made in either order. -/
theorem swapAt_comm (p : Program) (i j : Nat) :
    (p.swapAt i).swapAt j = (p.swapAt j).swapAt i := by
  by_cases hij : i = j
  · rw [hij]
  · apply ext_toList
    simp only [toList_swapAt]
    exact List.modify_modify_ne _ _ _ hij

/-! ### The candidates -/

/-- A candidate is the address of an instruction whose opcode has another
one. -/
theorem mem_candidates_iff :
    i ∈ p.candidates ↔ ∃ x, p.toList[i]? = some x ∧ x.isToggleable = true := by
  rw [candidates_eq, List.mem_map]
  constructor
  · rintro ⟨⟨x, k⟩, hentry, rfl⟩
    exact ⟨x, mem_swappable_iff.mp hentry⟩
  · rintro ⟨x, hx⟩
    exact ⟨(x, i), mem_swappable_iff.mpr hx, rfl⟩

/-- Candidates are told in ascending order, each once. -/
theorem pairwise_candidates (p : Program) : p.candidates.Pairwise (· < ·) :=
  List.pairwise_map.mpr p.pairwise_swappable

/-- There is something to swap at the same places as before. -/
theorem mem_candidates_swapAt_iff : j ∈ (p.swapAt i).candidates ↔ j ∈ p.candidates := by
  rw [mem_candidates_iff, mem_candidates_iff, toList_swapAt, List.getElem?_modify]
  by_cases hij : i = j
  · simp [hij]
  · simp [hij]

/-- In ascending order there is one list of the same places. -/
@[simp]
theorem candidates_swapAt (p : Program) (i : Nat) : (p.swapAt i).candidates = p.candidates :=
  (pairwise_candidates _).eq_of_mem_iff (pairwise_candidates p) fun _ => mem_candidates_swapAt_iff

/-- A swap changes the program exactly at the candidates. -/
theorem mem_candidates_iff_swapAt_ne (hi : i < p.size) :
    i ∈ p.candidates ↔ p.swapAt i ≠ p := by
  obtain ⟨x, -, hx⟩ := exists_get_of_lt hi
  constructor
  · intro h heq
    obtain ⟨y, hy, hswap⟩ := mem_candidates_iff.mp h
    have hsame : some y.toggled = some y := by
      rw [← at?_swapAt_self hy, heq, at?_natCast, hy]
    exact y.toggled_ne_iff.mpr hswap (Option.some.inj hsame)
  · intro h
    refine mem_candidates_iff.mpr ⟨x, hx, ?_⟩
    by_contra hswap
    exact h (swapAt_of_not_isToggleable hx (by simpa using hswap))

/-! ### The laws -/

/-- At an address of the program, the swap gives the program that is told
of it place by place. A second swap there gives the program back. Swaps
at two addresses can be made in either order. The candidates are the same
afterwards, ascend strictly, and are the addresses where the swap changes
the program. -/
theorem toggle_laws (hi : i < p.size) (hj : j < p.size) :
    ∃ x q r s, p.get i = .ok x ∧ p.toggle i = .ok q ∧ p.toggle j = .ok r
      ∧ (∀ q', p.toggle i = .ok q' ↔ p.SwappedAt i q')
      ∧ q.get i = .ok x.toggled
      ∧ q.toggle i = .ok p
      ∧ q.toggle j = .ok s ∧ r.toggle i = .ok s
      ∧ q.candidates = p.candidates
      ∧ p.candidates.Pairwise (· < ·)
      ∧ (i ∈ p.candidates ↔ q ≠ p) := by
  obtain ⟨x, hx, -⟩ := exists_get_of_lt hi
  have hi' : ∀ k, i < (p.swapAt k).size := fun k => by rwa [size_swapAt]
  have hj' : ∀ k, j < (p.swapAt k).size := fun k => by rwa [size_swapAt]
  refine ⟨x, p.swapAt i, p.swapAt j, (p.swapAt i).swapAt j, hx, toggle_of_lt hi, toggle_of_lt hj,
    fun _ => toggle_eq_ok_iff hi, get_swapAt_self hx, ?_, toggle_of_lt (hj' i), ?_,
    candidates_swapAt p i, pairwise_candidates p, mem_candidates_iff_swapAt_ne hi⟩
  · rw [toggle_of_lt (hi' i), swapAt_swapAt_self]
  · rw [toggle_of_lt (hi' j), swapAt_comm]

/-- The swaps at both ends of the demonstration: the first instruction is
one that is swapped, and the last one is not. -/
theorem toggle_laws_demonstration :
    ∃ q, demonstration.toggle 0 = .ok q ∧ q.get 0 = .ok ⟨.jmp, 0⟩ ∧ q.toggle 0 = .ok demonstration
      ∧ q.toggle 8 = .ok q
      ∧ q.candidates = [0, 2, 4, 7]
      ∧ 0 ∈ demonstration.candidates ∧ q ≠ demonstration := by
  have hfirst : 0 < demonstration.size := by decide
  have hlast : 8 < demonstration.size := by decide
  obtain ⟨x, q, r, s, hx, hq, hr, -, hget, hback, hqs, hrs, hcandidates, -, hchanged⟩ :=
    toggle_laws hfirst hlast
  have hmem : 0 ∈ demonstration.candidates := by decide
  cases hx
  obtain rfl : r = demonstration := Except.ok.inj (hr.symm.trans rfl)
  obtain rfl : s = q := Except.ok.inj (hrs.symm.trans hq)
  refine ⟨s, hq, hget, hback, hqs, ?_, hmem, hchanged.mp hmem⟩
  rw [hcandidates]
  decide

end Program

end AccumulatorMachine
