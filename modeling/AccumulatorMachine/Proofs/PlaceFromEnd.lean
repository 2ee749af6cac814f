import AccumulatorMachine.Proofs.Swap

/-!
# `AccumulatorMachine.Proofs.PlaceFromEnd`: swaps at places counted from the end

A place counts from the end if it is negative, so that there are two
places for every address: `p.addressOf i` is the address of both. The
look-up of an instruction depends on the address alone (`get_eq_ok_iff`).

A swap uses its place three times: to look up the instruction, and for
the cuts before and after it. The cuts are those at the address too,
with one exception. The cut after place `-1` is cut `0`, before the
first instruction. So a swap there keeps the whole program behind the
swapped instruction, and the program that it gives, `p.extended`, is
twice as long (`toggle_last`). At all other places the swap is the one
at the address (`toggle_eq_ok_swapAt`). Where there is nothing to swap,
no cut is made.

An attempt looks up the instruction at its place before and after the
swap, so the same holds of attempts. `swap_from_either_end` puts this
together.
-/

set_option autoImplicit false

namespace AccumulatorMachine.Program

variable {p : Program} {x y : Instruction} {i : Int}

/-! ### The address of a place -/

/-- The address that a place counted from either end names. -/
def addressOf (p : Program) (i : Int) : Nat := (i % p.size).toNat

/-- A place counted from the front is its address. -/
theorem addressOf_of_nonneg (h₀ : 0 ≤ i) (h₁ : i < p.size) : p.addressOf i = i.toNat := by
  rw [addressOf, Int.emod_eq_of_lt h₀ h₁]

/-- A place counted from the end has its address that far from the end. -/
theorem addressOf_of_neg (h₀ : -(p.size : Int) ≤ i) (h₁ : i < 0) :
    p.addressOf i = (p.size + i).toNat := by
  rw [addressOf, ← Int.add_emod_left, Int.emod_eq_of_lt (by omega) (by omega)]

/-- The address is a place of its own. -/
theorem natCast_addressOf (h₀ : -(p.size : Int) ≤ i) (h₁ : i < p.size) :
    (p.addressOf i : Int) = i % p.size :=
  Int.toNat_of_nonneg (Int.emod_nonneg i (by omega))

/-- So a place that is in the program has the address of an instruction. -/
theorem addressOf_lt (h₀ : -(p.size : Int) ≤ i) (h₁ : i < p.size) : p.addressOf i < p.size := by
  have hlt := Int.emod_lt_of_pos i (show (0 : Int) < p.size by omega)
  rw [← natCast_addressOf h₀ h₁] at hlt
  omega

/-- Both ways of access, to an instruction and to a mark, go to that
address. -/
theorem position_eq_addressOf (access : Access) (h₀ : -(p.size : Int) ≤ i) (h₁ : i < p.size) :
    position access p.size i = .ok ⟨p.addressOf i, addressOf_lt h₀ h₁⟩ := by
  rcases Int.lt_or_le i 0 with hneg | hnonneg
  · rw [position_of_neg access h₀ hneg]
    simp only [addressOf_of_neg h₀ hneg]
  · rw [position_of_nonneg access hnonneg h₁]
    simp only [addressOf_of_nonneg hnonneg h₁]

/-- The instruction at a place is the one at its address. -/
theorem get_eq_ok_iff :
    p.get i = .ok x ↔ (-(p.size : Int) ≤ i ∧ i < p.size) ∧ p.toList[p.addressOf i]? = some x := by
  by_cases h : -(p.size : Int) ≤ i ∧ i < p.size
  · have hlt : p.addressOf i < p.instructions.size := addressOf_lt h.1 h.2
    have hpos : position .instruction p.instructions.size i = .ok ⟨p.addressOf i, hlt⟩ :=
      position_eq_addressOf .instruction h.1 h.2
    have hget : p.get i = .ok p.instructions[p.addressOf i] := by
      rw [get, hpos]
      rfl
    rw [hget, toList, Array.getElem?_toList, Array.getElem?_eq_getElem hlt]
    simp [h]
  · have hnone : ¬∃ k, position .instruction p.instructions.size i = .ok k := by
      rwa [position_eq_ok_iff]
    simp only [h, false_and, iff_false, get]
    cases hpos : position .instruction p.instructions.size i with
    | ok k => exact absurd ⟨k, hpos⟩ hnone
    | error e => exact fun hget => by cases hget

/-- There is an instruction at the places from `-n` to `n - 1`. -/
theorem exists_get_iff : (∃ x, p.get i = .ok x) ↔ -(p.size : Int) ≤ i ∧ i < p.size := by
  simp only [get_eq_ok_iff]
  constructor
  · exact fun ⟨_, h, _⟩ => h
  · intro h
    exact ⟨_, h, List.getElem?_eq_getElem (length_toList p ▸ addressOf_lt h.1 h.2)⟩

/-- A swap leaves the addresses of all places. -/
@[simp]
theorem addressOf_swapAt (k : Nat) (i : Int) : (p.swapAt k).addressOf i = p.addressOf i := by
  rw [addressOf, addressOf, size_swapAt]

/-! ### The cuts at a place -/

/-- A cut at a place is made in front of its address. -/
theorem cutPoint_eq_addressOf (h₀ : -(p.size : Int) ≤ i) (h₁ : i < p.size) :
    cutPoint p.size i = p.addressOf i := by
  unfold cutPoint
  split
  · rw [addressOf_of_nonneg ‹_› h₁]
    omega
  · rw [addressOf_of_neg h₀ (by omega)]

/-- The next cut comes after the address, unless it is cut `0`. -/
theorem cutPoint_succ_eq_addressOf_succ (h₀ : -(p.size : Int) ≤ i) (h₁ : i < p.size)
    (hi : i ≠ -1) : cutPoint p.size (i + 1) = p.addressOf i + 1 := by
  unfold cutPoint
  split
  · rw [addressOf_of_nonneg (by omega) h₁]
    omega
  · rw [addressOf_of_neg h₀ (by omega)]
    omega

/-! ### Swaps -/

/-- A swap has a value wherever there is an instruction. -/
theorem exists_toggle_iff : (∃ q, p.toggle i = .ok q) ↔ -(p.size : Int) ≤ i ∧ i < p.size := by
  rw [← exists_get_iff, toggle]
  cases p.get i with
  | error e =>
      refine iff_of_false ?_ ?_
      · rintro ⟨q, hq⟩
        cases hq
      · rintro ⟨x, hx⟩
        cases hx
  | ok x =>
      refine iff_of_true ?_ ⟨x, rfl⟩
      simp only [bind, Except.bind]
      split
      · exact ⟨_, rfl⟩
      · exact ⟨_, rfl⟩

/-- A swap gives the program back if there is nothing to swap. -/
theorem toggle_of_not_isToggleable (h : p.get i = .ok x) (hx : x.isToggleable = false) :
    p.toggle i = .ok p := by
  simp [toggle, h, hx, bind, Except.bind, pure, Except.pure]

/-- Unless the swap is one of the last instruction from the end, it is
the one at the address. -/
theorem toggle_eq_ok_swapAt (h : p.get i = .ok x) (hi : ¬(i = -1 ∧ x.isToggleable = true)) :
    p.toggle i = .ok (p.swapAt (p.addressOf i)) := by
  obtain ⟨⟨h₀, h₁⟩, hx⟩ := get_eq_ok_iff.mp h
  cases ht : x.isToggleable with
  | false => rw [toggle_of_not_isToggleable h ht, swapAt_of_not_isToggleable hx ht]
  | true =>
      have hne : i ≠ -1 := fun hlast => hi ⟨hlast, ht⟩
      have hlt := addressOf_lt h₀ h₁
      have haddress : p.addressOf (p.addressOf i : Int) = p.addressOf i := by
        rw [addressOf_of_nonneg (by omega) (by omega), Int.toNat_natCast]
      rw [← toggle_eq_ok hx, toggle, toggle, h, get_natCast_eq_ok hx,
        cutPoint_eq_addressOf h₀ h₁, cutPoint_succ_eq_addressOf_succ h₀ h₁ hne,
        cutPoint_eq_addressOf (i := p.addressOf i) (by omega) (by omega),
        cutPoint_succ_eq_addressOf_succ (i := p.addressOf i) (by omega) (by omega) (by omega),
        haddress]

/-- The program with its last instruction swapped, and the program as it
was behind it. -/
def extended (p : Program) : Program :=
  ofList ((p.swapAt (p.addressOf (-1))).toList ++ p.toList)

/-- The swapped program comes first, and all of the old one is left behind
it. -/
@[simp]
theorem toList_extended (p : Program) :
    p.extended.toList = (p.swapAt (p.addressOf (-1))).toList ++ p.toList := rfl

/-- That is twice as long as it ought to be. -/
@[simp]
theorem size_extended (p : Program) : p.extended.size = 2 * p.size := by
  rw [← length_toList, toList_extended, List.length_append, length_toList, length_toList,
    size_swapAt]
  omega

/-- The cut after place `-1` is before the first instruction. -/
theorem toggle_last (h : p.get (-1) = .ok x) (hx : x.isToggleable = true) :
    p.toggle (-1) = .ok p.extended := by
  obtain ⟨⟨h₀, h₁⟩, hlast⟩ := get_eq_ok_iff.mp h
  obtain ⟨hlt, hlast⟩ := List.getElem?_eq_some_iff.mp hlast
  have hafter : p.addressOf (-1) + 1 = p.size := by
    rw [addressOf_of_neg h₀ (by omega)]
    omega
  have hcut' : cutPoint p.size (-1 + 1) = 0 := by simp [cutPoint]
  simp only [toggle, h, hx, cutPoint_eq_addressOf h₀ h₁, hcut', bind, Except.bind, pure,
    Except.pure, if_true, Except.ok.injEq]
  apply ext_toList
  rw [toList_extended, toList_swapAt, List.modify_eq_take_cons_drop hlt, hlast, hafter,
    List.drop_of_length_le (Nat.le_of_eq p.length_toList)]
  simp [toList, size]

/-- In the extended program the last instruction is as it was. -/
theorem get_extended_last (h : p.get (-1) = .ok x) : p.extended.get (-1) = .ok x := by
  obtain ⟨⟨h₀, h₁⟩, hlast⟩ := get_eq_ok_iff.mp h
  have hsize := p.size_extended
  refine get_eq_ok_iff.mpr ⟨⟨by omega, by omega⟩, ?_⟩
  have haddress : p.extended.addressOf (-1) = p.size + p.addressOf (-1) := by
    rw [addressOf_of_neg (by omega) (by omega), addressOf_of_neg h₀ (by omega)]
    omega
  rw [toList_extended, haddress, List.getElem?_append_right (by simp), length_toList,
    size_swapAt, Nat.add_sub_cancel_left, hlast]

/-! ### Attempts -/

/-- An attempt at a place looks up both instructions there. -/
theorem ending_attempt {q : Program} (hq : p.toggle i = .ok q) (hx : p.get i = .ok x)
    (hy : q.get i = .ok y) (settings : Settings) :
    (p.attempt i settings).ending
      = .ok { index := i, replaced := x, replacement := y, outcome := q.outcome 0 } := by
  rw [attempt, hq]
  simp only [Transcript.ofExcept, pure_bind, hx, hy]
  rw [execute_quiet, Transcript.bind_of_ok rfl]
  rfl

/-- An attempt where the swap is the one at the address. -/
theorem ending_attempt_swapAt (h : p.get i = .ok x)
    (hi : ¬(i = -1 ∧ x.isToggleable = true)) (settings : Settings) :
    (p.attempt i settings).ending
      = .ok { index := i, replaced := x, replacement := x.toggled,
              outcome := (p.swapAt (p.addressOf i)).outcome 0 } := by
  obtain ⟨hrange, hx⟩ := get_eq_ok_iff.mp h
  have hy : (p.swapAt (p.addressOf i)).get i = .ok x.toggled := by
    rw [get_eq_ok_iff, size_swapAt, addressOf_swapAt, ← at?_natCast]
    exact ⟨hrange, at?_swapAt_self hx⟩
  exact ending_attempt (toggle_eq_ok_swapAt h hi) h hy settings

/-- An attempt that swaps the last instruction from the end. -/
theorem ending_attempt_last (h : p.get (-1) = .ok x) (hx : x.isToggleable = true)
    (settings : Settings) :
    (p.attempt (-1) settings).ending
      = .ok { index := -1, replaced := x, replacement := x, outcome := p.extended.outcome 0 } :=
  ending_attempt (toggle_last h hx) h (get_extended_last h) settings

/-- Without a swap there is no attempt. -/
theorem attempt_of_toggle_eq_error {e : PositionError} (h : p.toggle i = .error e)
    (settings : Settings) : p.attempt i settings = Transcript.fail (.position e) := by
  rw [attempt, h]
  rfl

/-- An attempt has a value wherever there is an instruction. -/
theorem exists_attempt_iff (settings : Settings) :
    (∃ t, (p.attempt i settings).ending = .ok t) ↔ -(p.size : Int) ≤ i ∧ i < p.size := by
  constructor
  · rintro ⟨t, ht⟩
    rw [← exists_toggle_iff]
    cases hq : p.toggle i with
    | ok q => exact ⟨q, rfl⟩
    | error e =>
        rw [attempt_of_toggle_eq_error hq] at ht
        cases ht
  · intro hrange
    obtain ⟨x, hx⟩ := exists_get_iff.mpr hrange
    by_cases hlast : i = -1 ∧ x.isToggleable = true
    · obtain ⟨rfl, hswap⟩ := hlast
      exact ⟨_, ending_attempt_last hx hswap settings⟩
    · exact ⟨_, ending_attempt_swapAt hx hlast settings⟩

/-- A swap and an attempt have a value at the places from `-n` to
`n - 1` and at no others, where `n` is the number of instructions. Where
there is something to swap at place `-1`, the whole program comes once
more behind the swapped instruction, so that the program is twice as long
and its last instruction is not swapped. Everywhere else the place and its
address have the same swap, which changes the instruction there and no
other one, and the same attempt. -/
theorem swap_from_either_end (p : Program) (i : Int) :
    ((∃ q, p.toggle i = .ok q) ↔ -(p.size : Int) ≤ i ∧ i < p.size)
    ∧ (∀ settings, (∃ t, (p.attempt i settings).ending = .ok t)
        ↔ -(p.size : Int) ≤ i ∧ i < p.size)
    ∧ (∀ e settings, p.toggle i = .error e
        → p.attempt i settings = Transcript.fail (.position e))
    ∧ (-(p.size : Int) ≤ i → i < p.size → ∃ x, p.at? (i % p.size) = some x ∧
        if i = -1 ∧ x.isToggleable = true then
          p.toggle i = .ok p.extended ∧ p.extended.size = 2 * p.size
          ∧ ∀ settings, (p.attempt i settings).ending
              = .ok { index := i, replaced := x, replacement := x,
                      outcome := p.extended.outcome 0 }
        else
          ∃ q, p.toggle i = .ok q ∧ p.toggle (i % p.size) = .ok q ∧ q.size = p.size
          ∧ q.at? (i % p.size) = some x.toggled
          ∧ (∀ pc, pc ≠ i % p.size → q.at? pc = p.at? pc)
          ∧ ∀ settings, ∀ j ∈ [i, i % p.size], (p.attempt j settings).ending
              = .ok { index := j, replaced := x, replacement := x.toggled,
                      outcome := q.outcome 0 }) := by
  refine ⟨exists_toggle_iff, exists_attempt_iff,
    fun e settings h => attempt_of_toggle_eq_error h settings, fun h₀ h₁ => ?_⟩
  obtain ⟨x, hx⟩ := exists_get_iff.mpr ⟨h₀, h₁⟩
  have hat : p.toList[p.addressOf i]? = some x := (get_eq_ok_iff.mp hx).2
  rw [← natCast_addressOf h₀ h₁]
  -- Only the cut behind place `-1` differs from the one at its address.
  refine ⟨x, by rwa [at?_natCast], ?_⟩
  split
  · rename_i hlast
    obtain ⟨rfl, hswap⟩ := hlast
    exact ⟨toggle_last hx hswap, p.size_extended, ending_attempt_last hx hswap⟩
  · rename_i hlast
    refine ⟨_, toggle_eq_ok_swapAt hx hlast, toggle_eq_ok hat, p.size_swapAt _,
      at?_swapAt_self hat, fun pc hpc => at?_swapAt_of_ne hpc, ?_⟩
    intro settings j hj
    rw [List.mem_cons, List.mem_singleton] at hj
    rcases hj with rfl | rfl
    · exact ending_attempt_swapAt hx hlast settings
    · rw [attempt_eq hat]
      rfl

/-- The swap of the demonstration at the last place but one. -/
theorem swap_from_either_end_demonstration :
    -(demonstration.size : Int) ≤ -2 ∧ -2 < (demonstration.size : Int)
    ∧ ∃ q, demonstration.toggle (-2) = .ok q ∧ demonstration.toggle 7 = .ok q ∧ q.size = 9
      ∧ q.at? 7 = some ⟨.nop, -4⟩ := by
  obtain ⟨-, -, -, hswap⟩ := swap_from_either_end demonstration (-2)
  obtain ⟨x, hx, hcases⟩ := hswap (by decide) (by decide)
  have hx' : demonstration.at? (-2 % demonstration.size) = some ⟨.jmp, -4⟩ := by decide
  obtain rfl : x = ⟨.jmp, -4⟩ := Option.some.inj (hx.symm.trans hx')
  rw [if_neg (by decide)] at hcases
  obtain ⟨q, hq, hq', hsize, hat, -⟩ := hcases
  exact ⟨by decide, by decide, q, hq, hq', hsize, hat⟩

/-- A jump that is the whole program, swapped from the end: the jump is
still there, and the program has become longer. -/
theorem exists_toggle_ne_toggle_address :
    ∃ (p q : Program) (i : Int), (-(p.size : Int) ≤ i ∧ i < p.size)
      ∧ p.toggle i = .ok q ∧ q.size ≠ p.size ∧ p.toggle i ≠ p.toggle (i % p.size) := by
  have hfrom : (ofList [⟨.jmp, 0⟩]).toggle (-1) = .ok (ofList [⟨.nop, 0⟩, ⟨.jmp, 0⟩]) := rfl
  have hto : (ofList [⟨.jmp, 0⟩]).toggle 0 = .ok (ofList [⟨.nop, 0⟩]) := rfl
  refine ⟨ofList [⟨.jmp, 0⟩], _, -1, by decide, hfrom, by decide, fun heq => ?_⟩
  have hsame : (ofList [⟨.nop, 0⟩, ⟨.jmp, 0⟩]) = ofList [⟨.nop, 0⟩] :=
    Except.ok.inj (hfrom.symm.trans (heq.trans hto))
  revert hsame
  decide

end AccumulatorMachine.Program
