import Mathlib
import AccumulatorMachine.Proofs.Search

/-!
# `AccumulatorMachine.Proofs.Detour`: which swaps repair a failing program

A swap at `i` sends the machine the other way from `i`: from a `jmp` to
the next address, from a `nop` to where its argument points. That is
`Instruction.otherWay`.

Take a program that does not halt. A swap at `i` repairs it exactly if
its run comes to `i` and the plain machine on the program as it is
comes to the end from there by the other way. Three runs are compared:
the run of the program, the run of the swapped program, and the run of
the plain machine from the other way.

* Up to the first time at `i` the first two are the same
  (`after_swapAt_eq`). If the run never comes to `i`, they are the same
  to the end, and the swapped program fails too
  (`not_halts_swapAt_of_not_passed`).
* From `i` on the swapped program takes the other way, and it does what
  the program does there (`after_otherWay_iff`). For no run that comes
  to the end can come to `i` once more: on the program as it is the
  machine fails from `i`, and on the swapped one it would be at `i` a
  second time.

`swap_repairs_iff` states it for attempts and for searches, with the
accumulator that an attempt ends with.
-/

set_option autoImplicit false

namespace AccumulatorMachine

namespace Instruction

/-- The address after `pc` if the instruction there is swapped. -/
def otherWay (x : Instruction) (pc : Int) : Int :=
  match x.opcode with
  | .acc => pc + 1
  | .jmp => pc + 1
  | .nop => pc + x.argument

/-- A swapped instruction leads the other way. -/
theorem advance_toggled {x : Instruction} (hx : x.isToggleable = true) (c : Configuration) :
    c.advance x.toggled = ⟨x.otherWay c.pc, c.accumulator⟩ := by
  obtain ⟨opcode, argument⟩ := x
  cases opcode with
  | acc => cases hx
  | jmp => rfl
  | nop => rfl

end Instruction

/-- The sum of the arguments of the `acc` instructions among some
steps. -/
def accTotal (steps : List Step) : Int :=
  ((steps.filter fun s => s.instruction.opcode = .acc).map fun s => s.instruction.argument).sum

namespace Program

variable {p : Program} {c d e : Configuration} {x : Instruction} {i k m n : Nat} {a b : Int}

/-- The accumulator gains the arguments of the `acc` instructions. -/
theorem accumulator_eq (h : p.after k c = some d) (n : Nat) :
    d.accumulator = c.accumulator + accTotal (p.steps k n c) := by
  induction k generalizing n c with
  | zero =>
      rw [after_zero, Option.some.injEq] at h
      simp [h, steps, accTotal]
  | succ k ih =>
      obtain ⟨j, hj⟩ := exists_at?_of_lt (after_zero p c) h (Nat.zero_lt_succ k)
      rw [after_succ_of_at? hj] at h
      have hrest := ih h (n + 1)
      simp only [steps, hj]
      obtain ⟨opcode, argument⟩ := j
      -- Only `acc` adds to the accumulator, and only its steps pass the
      -- filter.
      cases opcode with
      | acc =>
          simp only [accTotal, Step.ofConfiguration, Configuration.advance, decide_true,
            List.filter_cons_of_pos, List.map_cons, List.sum_cons] at hrest ⊢
          omega
      | jmp => simpa [accTotal, Step.ofConfiguration, Configuration.advance] using hrest
      | nop => simpa [accTotal, Step.ofConfiguration, Configuration.advance] using hrest

/-! ### Before the swapped instruction -/

/-- Away from the swapped instruction the programs are the same. -/
theorem agreeAt_swapAt {pc : Int} (h : pc ≠ i) : p.AgreeAt (p.swapAt i) pc :=
  agreeAt_of_eq (at?_swapAt_of_ne h)

/-- A swap at a position that is not passed is not noticed. -/
theorem after_swapAt_eq (h : ¬p.Passed c n i) : (p.swapAt i).after n c = p.after n c := by
  refine after_congr fun m hm e he => agreeAt_swapAt fun hpc => ?_
  exact h ⟨m, hm, e, he, hpc⟩

/-- So it cannot let a program halt that does not: only positions on the way
to the stop are worth a swap. This is why a repair has to be a detour from
the path of the program itself. -/
theorem not_halts_swapAt_of_not_passed (hstop : p.StopsAt c n d) (hpass : ¬p.Passed c n i)
    (hfail : ¬p.Halts c) : ¬(p.swapAt i).Halts c := by
  have hstop' : (p.swapAt i).StopsAt c n d := by
    refine hstop.congr (size_swapAt p i) fun pc hpc => agreeAt_swapAt ?_
    rintro rfl
    exact hpass hpc
  -- The swapped program stops where the program does, which is not the
  -- end.
  rintro ⟨m, a, hm⟩
  rw [size_swapAt] at hm
  have hend : (p.swapAt i).at? p.size = none := by
    rw [← size_swapAt p i]
    exact at?_size _
  obtain ⟨-, rfl⟩ := hstop'.eq_of_at?_eq_none hm hend
  exact hfail ⟨n, a, hstop.reached⟩

/-! ### From the swapped instruction on -/

section
variable (hi : p.toList[i]? = some x) (hx : x.isToggleable = true)
include hi hx

/-- From its own address the swapped instruction leads the other way. -/
theorem after_swapAt_succ (b : Int) (n : Nat) :
    (p.swapAt i).after (n + 1) ⟨i, b⟩ = (p.swapAt i).after n ⟨x.otherWay i, b⟩ := by
  rw [after_succ_of_at? (at?_swapAt_self hi), Instruction.advance_toggled hx]

/-- A program that fails from `i` comes to the end by the other way
exactly if the swapped program does. -/
theorem after_otherWay_iff (hfail : ¬p.Halts ⟨i, b⟩) :
    (p.swapAt i).after n ⟨x.otherWay i, b⟩ = some ⟨p.size, a⟩
      ↔ p.after n ⟨x.otherWay i, b⟩ = some ⟨p.size, a⟩ := by
  constructor
  · intro hend
    rw [← hend]
    refine after_congr fun m hm e he => (agreeAt_swapAt fun hpc => ?_).symm
    -- The swapped program would be at `i` twice and go on forever.
    rw [← after_swapAt_succ hi hx] at he hend
    obtain ⟨f, hf⟩ :=
      exists_after_of_revisit (after_zero _ _) he (Nat.zero_lt_succ m) hpc.symm (n + 1 + 1)
    obtain ⟨j, hj⟩ := exists_at?_of_lt hend hf (Nat.lt_succ_self _)
    rw [← size_swapAt p i, at?_size] at hj
    cases hj
  · intro hend
    rw [← hend]
    refine after_swapAt_eq fun ⟨m, hm, e, he, hpc⟩ => hfail ?_
    -- The end lies behind `i`, but the program fails from there.
    obtain ⟨e', he', hrest⟩ := exists_after_of_le hend (Nat.le_of_lt hm)
    rw [he, Option.some.injEq] at he'
    exact Halts.of_pc_eq ⟨n - m, a, he' ▸ hrest⟩ hpc

/-- A program that fails but comes to `i` for the first time with `b`:
the swapped program comes to the end exactly if the program does by the
other way. -/
theorem exists_after_swapAt_iff (hreach : p.after n c = some ⟨i, b⟩) (hpass : ¬p.Passed c n i)
    (hfail : ¬p.Halts c) :
    (∃ m, (p.swapAt i).after m c = some ⟨p.size, a⟩)
      ↔ ∃ m, p.after m ⟨x.otherWay i, 0⟩ = some ⟨p.size, a - b⟩ := by
  have hfail' : ¬p.Halts ⟨i, b⟩ := fun h => hfail (h.of_after hreach)
  have hreach' := (after_swapAt_eq hpass).trans hreach
  -- The accumulator on the way is `b` more than from `0`.
  have hshift : ∀ m, p.after m ⟨x.otherWay i, 0⟩ = some ⟨p.size, a - b⟩
      ↔ p.after m ⟨x.otherWay i, b⟩ = some ⟨p.size, a⟩ := by
    intro m
    rw [← after_shift_eq_some_iff (a := b)]
    simp [Configuration.shift]
  simp only [hshift, ← after_otherWay_iff hi hx hfail']
  constructor
  · rintro ⟨m, hm⟩
    rw [← size_swapAt p i] at hm
    obtain ⟨k, -, hk⟩ := exists_after_of_after_eq_end hreach' hm (at?_swapAt_self hi)
    rw [Instruction.advance_toggled hx, size_swapAt] at hk
    exact ⟨k, hk⟩
  · rintro ⟨m, hm⟩
    exact ⟨n + (m + 1), by rw [after_add_of_eq_some hreach', after_swapAt_succ hi hx, hm]⟩

/-! ### The run and its attempts -/

/-- For a failing program whose run takes a step at `i`: a swap there
repairs it exactly if the plain machine comes to the end by the other
way, with the gain from there added to what the step began with. -/
theorem repairedBy_iff_of_mem_steps (hfail : ¬p.Halts ⟨0, 0⟩) {step : Step}
    (hstep : step ∈ (p.quietTrace 0).steps) (hpc : step.pc = i) :
    p.RepairedBy i a
      ↔ ∃ m, p.after m ⟨x.otherWay i, 0⟩ = some ⟨p.size, a - step.before⟩ := by
  obtain ⟨k, d, hstop, htrace⟩ := p.exists_stopsAt_quietTrace 0
  rw [htrace] at hstep
  obtain ⟨m, hm, e, j, he, -, rfl⟩ := (mem_steps_iff hstop.reached).mp hstep
  obtain ⟨pc, b⟩ := e
  obtain rfl : pc = i := hpc
  -- A run takes no second step at one address.
  have hpass : ¬p.Passed ⟨0, 0⟩ m i := hstop.fresh m hm _ he
  rw [RepairedBy, and_iff_right ⟨x, hi, hx⟩, exists_after_swapAt_iff hi hx he hpass hfail]
  rfl

/-- A swap repairs a failing program exactly if the run comes there and
the plain machine comes to the end by the other way. -/
theorem exists_repairedBy_iff (hfail : ¬p.Halts ⟨0, 0⟩) :
    (∃ a, p.RepairedBy i a)
      ↔ (i : Int) ∈ (p.quietTrace 0).visited ∧ p.Halts ⟨x.otherWay i, 0⟩ := by
  constructor
  · rintro ⟨a, hrep⟩
    by_cases hvisit : (i : Int) ∈ (p.quietTrace 0).visited
    · obtain ⟨step, hstep, hpc⟩ := List.mem_map.mp hvisit
      obtain ⟨m, hm⟩ := (repairedBy_iff_of_mem_steps hi hx hfail hstep hpc).mp hrep
      exact ⟨hvisit, m, _, hm⟩
    · -- The swapped program would run as the program does.
      obtain ⟨k, d, hstop, -⟩ := p.exists_stopsAt_quietTrace 0
      rw [mem_visited_iff hstop] at hvisit
      obtain ⟨-, n, hn⟩ := hrep
      rw [← size_swapAt p i] at hn
      exact absurd ⟨n, a, hn⟩ (not_halts_swapAt_of_not_passed hstop hvisit hfail)
  · rintro ⟨hvisit, m, a, hm⟩
    obtain ⟨step, hstep, hpc⟩ := List.mem_map.mp hvisit
    refine ⟨a + step.before, (repairedBy_iff_of_mem_steps hi hx hfail hstep hpc).mpr ⟨m, ?_⟩⟩
    rwa [Int.add_sub_cancel]

end

/-- Whether a run comes to an instruction to swap from which the plain
machine comes to the end by the other way. -/
def Detour (p : Program) (t : Trace) (i : Nat) : Prop :=
  ∃ x, p.toList[i]? = some x ∧ x.isToggleable = true ∧ (i : Int) ∈ t.visited
    ∧ p.Halts ⟨x.otherWay i, 0⟩

/-- Spelled out: the run comes to a `jmp` and the plain machine comes to the
end from the next address, or the run comes to a `nop` and the plain
machine comes to the end from where its argument points. -/
theorem detour_iff {t : Trace} :
    p.Detour t i
      ↔ (i : Int) ∈ t.visited ∧ ∃ argument,
        p.toList[i]? = some ⟨.jmp, argument⟩ ∧ p.Halts ⟨i + 1, 0⟩
        ∨ p.toList[i]? = some ⟨.nop, argument⟩ ∧ p.Halts ⟨i + argument, 0⟩ := by
  constructor
  · rintro ⟨⟨opcode, argument⟩, hx, hswap, hvisit, hhalts⟩
    refine ⟨hvisit, argument, ?_⟩
    rcases Instruction.isToggleable_iff.mp hswap with hopcode | hopcode
    · cases hopcode
      exact .inl ⟨hx, hhalts⟩
    · cases hopcode
      exact .inr ⟨hx, hhalts⟩
  · rintro ⟨hvisit, argument, ⟨hx, hhalts⟩ | ⟨hx, hhalts⟩⟩
    · exact ⟨_, hx, rfl, hvisit, hhalts⟩
    · exact ⟨_, hx, rfl, hvisit, hhalts⟩

/-- A swap repairs a failing program exactly if it is a detour of its
run. -/
theorem exists_repairedBy_iff_detour (hfail : ¬p.Halts ⟨0, 0⟩) :
    (∃ a, p.RepairedBy i a) ↔ p.Detour (p.quietTrace 0) i := by
  constructor
  · rintro ⟨a, hrep⟩
    obtain ⟨x, hi, hx⟩ := hrep.1
    exact ⟨x, hi, hx, (exists_repairedBy_iff hi hx hfail).mp ⟨a, hrep⟩⟩
  · rintro ⟨x, hi, hx, h⟩
    exact (exists_repairedBy_iff hi hx hfail).mpr h

/-- An attempt at an instruction to swap succeeds exactly if the swap
repairs the program. -/
theorem succeeded_attemptAt_iff_repairedBy (hi : p.toList[i]? = some x)
    (hx : x.isToggleable = true) :
    (p.attemptAt (x, i)).succeeded = true ↔ ∃ a, p.RepairedBy i a := by
  rw [succeeded_attemptAt_iff, Halts, exists_comm, size_swapAt]
  exact exists_congr fun a => (and_iff_right ⟨x, hi, hx⟩).symm

/-- Take a program that does not halt, and the trace `t` of its run
from accumulator `0`. An attempt at an instruction to swap succeeds
exactly if the run comes there and the plain machine on the program as
it is comes to the end by the other way. The accumulator of the attempt
is then the one before the step there and the arguments of the `acc`
instructions from there to the end. A search finds the lowest such
address, with any number of workers, or finds nothing if there is
none. -/
theorem swap_repairs_iff (p : Program) (a₀ workers : Int)
    (hfail : ∀ a, (p.execute { initial := a₀, workers }).ending ≠ .ok (.halted a)) :
    ∃ t, (p.trace { initial := 0 }).ending = .ok t
      ∧ (∀ (i : Nat) (x : Instruction) (settings : Settings),
          p.toList[i]? = some x → x.isToggleable = true →
          ∃ y, (p.attempt i settings).ending = .ok y
            ∧ (y.succeeded = true ↔ (i : Int) ∈ t.visited ∧ p.Halts ⟨x.otherWay i, 0⟩)
            ∧ ∀ step ∈ t.steps, step.pc = i →
                ∀ n a, p.after n ⟨x.otherWay i, 0⟩ = some ⟨p.size, a⟩ →
                  y.outcome
                    = .halted (step.before + accTotal (p.steps n 0 ⟨x.otherWay i, 0⟩)))
      ∧ ∀ initial workers, ∃ r, (p.repair { initial, workers }).ending = .ok r
          ∧ (r.found = true ↔ ∃ i, p.Detour t i)
          ∧ ∀ index a attempts, r = .repaired index a attempts →
              ∃ i : Nat, index = i ∧ p.Detour t i ∧ ∀ j < i, ¬p.Detour t j := by
  -- What the program fails with from `a₀` it fails with from `0`.
  have hfail₀ : ¬p.Halts ⟨0, 0⟩ := by
    intro h
    obtain ⟨n, a, hn⟩ := h.of_pc_eq (d := ⟨0, a₀⟩) rfl
    refine hfail a ?_
    rw [execute_quiet, outcome_eq_halted_iff.mpr ⟨n, hn⟩]
  refine ⟨p.quietTrace 0, by rw [trace_quiet], ?_, ?_⟩
  · intro i x settings hi hx
    refine ⟨p.attemptAt (x, i), by rw [attempt_eq hi], ?_, ?_⟩
    · rw [succeeded_attemptAt_iff_repairedBy hi hx, exists_repairedBy_iff hi hx hfail₀]
    · intro step hstep hpc n a hn
      have ha : a = accTotal (p.steps n 0 ⟨x.otherWay i, 0⟩) := by
        simpa using accumulator_eq hn 0
      have hrep : p.RepairedBy i (step.before + a) := by
        refine (repairedBy_iff_of_mem_steps hi hx hfail₀ hstep hpc).mpr ⟨n, ?_⟩
        rwa [Int.add_comm, Int.add_sub_cancel]
      obtain ⟨-, m, hm⟩ := hrep
      rw [← ha]
      refine outcome_eq_halted_iff.mpr ⟨m, ?_⟩
      rw [size_swapAt, hm]
  · intro initial workers
    simp only [← exists_repairedBy_iff_detour hfail₀]
    rcases p.repair_cases initial workers with ⟨i, a, hres, hrep, hlow⟩ | ⟨hres, hnone⟩
    · refine ⟨_, hres, ⟨fun _ => ⟨i, a, hrep⟩, fun _ => rfl⟩, ?_⟩
      rintro index b attempts ⟨⟩
      exact ⟨i, rfl, ⟨a, hrep⟩, fun j hj ⟨b, hb⟩ => hlow j hj b hb⟩
    · refine ⟨_, hres, ⟨fun h => (by cases h), fun ⟨i, a, h⟩ => absurd h (hnone i a)⟩, ?_⟩
      rintro index b attempts ⟨⟩

/-- The demonstration goes round forever. Its swap at `7` succeeds, so
the run comes to `7` and the machine would come to the end from `8`. -/
theorem swap_repairs_demonstration :
    (∀ a, (demonstration.execute { initial := 3, workers := 2 }).ending ≠ .ok (.halted a))
      ∧ ∃ t y, (demonstration.trace { initial := 0 }).ending = .ok t
        ∧ (demonstration.attempt 7 {}).ending = .ok y
        ∧ y.succeeded = true ∧ (7 : Int) ∈ t.visited ∧ demonstration.Halts ⟨8, 0⟩ := by
  have hfail : ∀ a, (demonstration.execute { initial := 3, workers := 2 }).ending
      ≠ .ok (.halted a) := by
    have h : (demonstration.execute { initial := 3, workers := 2 }).ending
        = .ok (.infiniteLoop 8) := by cbv
    intro a ha
    cases h.symm.trans ha
  have hattempt : (demonstration.attempt 7 {}).ending
      = .ok ⟨7, ⟨.jmp, -4⟩, ⟨.nop, -4⟩, .halted 8⟩ := by cbv
  obtain ⟨t, ht, hattempts, -⟩ := swap_repairs_iff demonstration 3 2 hfail
  obtain ⟨y, hy, hiff, -⟩ := hattempts 7 ⟨.jmp, -4⟩ {} rfl rfl
  have hy' : y = _ := Except.ok.inj (hy.symm.trans hattempt)
  have hsucc : y.succeeded = true := by rw [hy']; rfl
  obtain ⟨hvisit, hend⟩ := hiff.mp hsucc
  exact ⟨hfail, t, y, ht, hy, hsucc, hvisit, hend⟩

end Program

end AccumulatorMachine
