import AccumulatorMachine.Proofs.LoopDetection
import AccumulatorMachine.Repair

/-!
# `AccumulatorMachine.Proofs.Swap`: one swapped instruction and the attempt that it makes

`p.swapAt i` is the program with the instruction at `i` swapped and
every other one as it was. `toggle` cuts the program in two and puts
the swapped instruction between the parts; for an address of the
program that is the same (`toggle_eq_ok`).

An attempt runs the swapped program quietly from accumulator `0`.
`attempt_eq` says what it gives and writes: it never fails at an
address of the program, and the settings make no difference to it. It
succeeds exactly if the plain machine on the swapped program comes to
the end (`success?_attemptAt_eq_some_iff`).
-/

set_option autoImplicit false

namespace AccumulatorMachine

namespace Instruction

/-- An instruction that cannot be swapped is its own swap. -/
theorem toggled_of_not_isToggleable {x : Instruction} (h : x.isToggleable = false) :
    x.toggled = x := by
  obtain ⟨opcode, argument⟩ := x
  cases opcode with
  | acc => rfl
  | jmp => cases h
  | nop => cases h

/-- An instruction can be swapped exactly if it is a `jmp` or a `nop`. -/
theorem isToggleable_iff {x : Instruction} :
    x.isToggleable = true ↔ x.opcode = .jmp ∨ x.opcode = .nop := by
  obtain ⟨opcode, argument⟩ := x
  cases opcode <;> simp [isToggleable, Opcode.isToggleable]

/-- Whether one of two instructions is a `jmp` and the other a `nop`, with
the same argument. -/
inductive Opposite : Instruction → Instruction → Prop
  | jmpNop (argument : Int) : Opposite ⟨.jmp, argument⟩ ⟨.nop, argument⟩
  | nopJmp (argument : Int) : Opposite ⟨.nop, argument⟩ ⟨.jmp, argument⟩

/-- The swap of an instruction that can be swapped is its opposite, and
nothing else is opposite to anything. -/
theorem opposite_iff {x y : Instruction} :
    x.Opposite y ↔ x.isToggleable = true ∧ y = x.toggled := by
  constructor
  · intro h
    cases h with
    | jmpNop argument => exact ⟨rfl, rfl⟩
    | nopJmp argument => exact ⟨rfl, rfl⟩
  · rintro ⟨hx, rfl⟩
    obtain ⟨opcode, argument⟩ := x
    cases opcode with
    | acc => cases hx
    | jmp => exact .jmpNop argument
    | nop => exact .nopJmp argument

end Instruction

namespace Program

variable {p : Program} {x : Instruction} {i : Nat}

/-! ### The swapped program -/

/-- The program with the instruction at an address swapped. -/
def swapAt (p : Program) (i : Nat) : Program :=
  ⟨p.instructions.modify i Instruction.toggled⟩

/-- In order, the instructions are the same but for the one at the address.
-/
@[simp]
theorem toList_swapAt (p : Program) (i : Nat) :
    (p.swapAt i).toList = p.toList.modify i Instruction.toggled :=
  Array.toList_modify

/-- A swap adds no instruction and takes none away. -/
@[simp]
theorem size_swapAt (p : Program) (i : Nat) : (p.swapAt i).size = p.size := by
  rw [← length_toList, toList_swapAt, List.length_modify, length_toList]

/-- At its own address the instruction is the swapped one. -/
theorem at?_swapAt_self (h : p.toList[i]? = some x) : (p.swapAt i).at? i = some x.toggled := by
  rw [at?_natCast, toList_swapAt, List.getElem?_modify_eq, h]
  rfl

/-- In terms of the instructions in order, one of them is swapped. -/
theorem swapAt_eq_iff {q : Program} (h : p.toList[i]? = some x) :
    q = p.swapAt i
      ↔ ∃ before after, p.toList = before ++ x :: after ∧ before.length = i
        ∧ q.toList = before ++ x.toggled :: after := by
  have hswap : ∀ before after : List Instruction, before.length = i →
      (before ++ x :: after).modify i Instruction.toggled = before ++ x.toggled :: after := by
    rintro before after rfl
    rw [List.modify_eq_take_cons_drop (by simp)]
    simp
  constructor
  · rintro rfl
    obtain ⟨hi, hx⟩ := List.getElem?_eq_some_iff.mp h
    -- There is one way to cut the list at the address.
    have hcut : p.toList = p.toList.take i ++ x :: p.toList.drop (i + 1) := by
      rw [← hx, List.getElem_cons_drop, List.take_append_drop]
    have hlength : (p.toList.take i).length = i := List.length_take_of_le (Nat.le_of_lt hi)
    refine ⟨p.toList.take i, p.toList.drop (i + 1), hcut, hlength, ?_⟩
    rw [toList_swapAt, ← hswap _ _ hlength, ← hcut]
  · rintro ⟨before, after, hp, hlength, hq⟩
    apply ext_toList
    rw [toList_swapAt, hp, hq, hswap before after hlength]

/-- Everywhere else the instructions are as they were. -/
theorem at?_swapAt_of_ne {pc : Int} (h : pc ≠ i) : (p.swapAt i).at? pc = p.at? pc := by
  unfold at?
  split
  · rw [toList_swapAt, List.getElem?_modify_ne _ _ (by omega)]
  · rfl

/-- A swap of an instruction that cannot be swapped changes nothing. -/
theorem swapAt_of_not_isToggleable (h : p.toList[i]? = some x) (hx : x.isToggleable = false) :
    p.swapAt i = p := by
  apply ext_toList
  rw [toList_swapAt]
  refine List.ext_getElem? fun j => ?_
  rw [List.getElem?_modify]
  by_cases hij : i = j
  · subst hij
    simp [h, Instruction.toggled_of_not_isToggleable hx]
  · simp [hij]

/-- From the front, the cuts before and after an address leave the
instructions before and after it. -/
theorem toggle_eq_ok (h : p.toList[i]? = some x) : p.toggle i = .ok (p.swapAt i) := by
  have hget : p.get i = .ok x := get_natCast_eq_ok h
  obtain ⟨hi, hx⟩ := List.getElem?_eq_some_iff.mp h
  cases ht : x.isToggleable with
  | false =>
      -- The program is handed on as it is.
      rw [swapAt_of_not_isToggleable h ht]
      simp [toggle, hget, ht, bind, Except.bind, pure, Except.pure]
  | true =>
      -- No cut is clamped: both places are inside or at the end.
      have hsize : i < p.size := by rwa [length_toList] at hi
      have hcut : cutPoint p.size i = i := by
        unfold cutPoint
        split <;> omega
      have hcut' : cutPoint p.size (i + 1) = i + 1 := by
        unfold cutPoint
        split <;> omega
      simp only [toggle, hget, ht, hcut, hcut', bind, Except.bind, pure, Except.pure, if_true,
        Except.ok.injEq]
      apply ext_toList
      rw [toList_swapAt, List.modify_eq_take_cons_drop hi, hx]
      have hdrop : (p.instructions.extract (i + 1) p.size).toList = p.toList.drop (i + 1) := by
        rw [Array.toList_extract, List.extract_eq_take_drop, ← toList, ← length_toList]
        exact List.take_of_length_le (Nat.le_of_eq List.length_drop)
      have htake : (p.instructions.extract 0 i).toList = p.toList.take i := by
        rw [Array.toList_extract, List.extract_eq_take_drop, ← toList]
        simp
      simp only [toList, Array.toList_append, Array.toList_push, List.append_assoc,
        List.singleton_append]
      rw [hdrop, htake]
      rfl

/-- What `toggle` gives at an address of the program. -/
theorem eq_swapAt_of_toggle {q : Program} (h : p.toList[i]? = some x)
    (hq : p.toggle i = .ok q) : q = p.swapAt i :=
  Except.ok.inj (hq.symm.trans (toggle_eq_ok h))

/-! ### The attempt at an address -/

/-- The attempt at an address of the program, given with its
instruction. -/
def attemptAt (p : Program) (entry : Instruction × Nat) : Attempt :=
  { index := entry.2, replaced := entry.1, replacement := entry.1.toggled,
    outcome := (p.swapAt entry.2).outcome 0 }

/-- An attempt at an address of the program has a value, whatever the
settings, and writes into the log alone. -/
theorem attempt_eq (h : p.toList[i]? = some x) (settings : Settings) :
    p.attempt i settings
      = ⟨[.logged (.executed ((p.swapAt i).quietTrace 0).steps.length
            ((p.swapAt i).outcome 0).record),
          .logged (.attempted i ((p.swapAt i).outcome 0).record)],
          .ok (p.attemptAt (x, i))⟩ := by
  have hget : p.get i = .ok x := get_natCast_eq_ok h
  have hget' : (p.swapAt i).get i = .ok x.toggled := get_eq_ok (at?_swapAt_self h)
  rw [attempt, toggle_eq_ok h]
  simp only [Transcript.ofExcept, pure_bind, hget, hget']
  rw [execute_quiet, Transcript.bind_of_ok rfl]
  rfl

/-- An attempt succeeds exactly if the plain machine on the swapped
program comes to the end. -/
theorem success?_attemptAt_eq_some_iff {index a : Int} :
    (p.attemptAt (x, i)).success? = some (index, a)
      ↔ index = i ∧ ∃ n, (p.swapAt i).after n ⟨0, 0⟩ = some ⟨p.size, a⟩ := by
  rw [← size_swapAt p i, ← outcome_eq_halted_iff]
  unfold Attempt.success?
  split
  · rename_i b hb
    have hb' : (p.swapAt i).outcome 0 = .halted b := hb
    simp only [Option.some.injEq, Prod.mk.injEq, hb', Outcome.halted.injEq, attemptAt]
    exact and_congr_left fun _ => eq_comm
  · rename_i hb
    simp only [reduceCtorEq, false_iff, not_and]
    exact fun _ ha => hb a ha

/-- The same, without the accumulator. -/
theorem succeeded_attemptAt_iff :
    (p.attemptAt (x, i)).succeeded = true ↔ (p.swapAt i).Halts ⟨0, 0⟩ :=
  succeeded_outcome_iff

/-- A damaged program: the swap at `7` repairs it and no other one
does. -/
def demonstration : Program :=
  ofList [⟨.nop, 0⟩, ⟨.acc, 1⟩, ⟨.jmp, 4⟩, ⟨.acc, 3⟩, ⟨.jmp, -3⟩, ⟨.acc, -99⟩, ⟨.acc, 1⟩,
    ⟨.jmp, -4⟩, ⟨.acc, 6⟩]

end Program

end AccumulatorMachine
