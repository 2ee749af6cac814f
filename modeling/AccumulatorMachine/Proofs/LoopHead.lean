import Mathlib
import AccumulatorMachine.Proofs.Swap

/-!
# `AccumulatorMachine.Proofs.LoopHead`: what the marks tell at the head of the loop

A run takes turns in a loop. `p.AtHead a₀ steps s` says that the run
from accumulator `a₀` is in the state `s` at the head of the loop, with
`steps` taken before. Every such state is one that `runFrom` goes on
from (`AtHead.runFrom_eq`), and a state that the run ends in is one of
them (`AtHead.exists_ended`).

The marks are a record of the run. `State.LoopInvariant` says what they
tell:

* there is a mark for every address of the program, and the marked
  addresses are those of the steps, each of which was taken once;
* the accumulator is the one at the start and the arguments of the
  `acc` instructions at marked addresses, so the order of the steps
  does not matter to it.

`LoopInvariant.advance` keeps it over a move, for any instruction and
however far it jumps. Where `check` finds no end, the address is one of
the program and has no mark, and every look-up there is from the front:
a negative address never gets so far. So no turn fails, and a quiet run
has an outcome (`loop_head_accounts`).
-/

set_option autoImplicit false

namespace AccumulatorMachine

/-! ### Sums over marked addresses -/

/-- The sum of the arguments of the `acc` instructions with a mark. -/
def markedSum (instructions : List Instruction) (marks : List Bool) : Int :=
  (((instructions.zip marks).filter fun e => e.2 && e.1.opcode = .acc).map
    fun e => e.1.argument).sum

/-- The first instruction adds its argument if it is a marked `acc`. -/
theorem markedSum_cons (x : Instruction) (l : List Instruction) (b : Bool) (marks : List Bool) :
    markedSum (x :: l) (b :: marks)
      = (if b then x.effect.gain else 0) + markedSum l marks := by
  obtain ⟨opcode, argument⟩ := x
  cases b with
  | false => simp [markedSum]
  | true => cases opcode <;> simp [markedSum, Instruction.effect]

/-- A new mark adds what its instruction gains. -/
theorem markedSum_set {l : List Instruction} {marks : List Bool} {k : Nat} {x : Instruction}
    (hx : l[k]? = some x) (hk : marks[k]? = some false) :
    markedSum l (marks.set k true) = markedSum l marks + x.effect.gain := by
  induction l generalizing marks k with
  | nil => cases hx
  | cons y l ih =>
      cases marks with
      | nil => cases hk
      | cons b marks =>
          cases k with
          | zero =>
              cases hx
              cases hk
              rw [List.set_cons_zero, markedSum_cons, markedSum_cons]
              simp [Int.add_comm]
          | succ k =>
              have hrest : markedSum l (marks.set k true)
                  = markedSum l marks + x.effect.gain := ih hx hk
              rw [List.set_cons_succ, markedSum_cons, markedSum_cons, hrest, Int.add_assoc]

/-- Without a mark there is nothing to add. -/
theorem markedSum_replicate (l : List Instruction) (n : Nat) :
    markedSum l (List.replicate n false) = 0 := by
  induction l generalizing n with
  | nil => rfl
  | cons x l ih =>
      cases n with
      | zero => rfl
      | succ n => rw [List.replicate_succ, markedSum_cons, ih n]; rfl

namespace Program

/-- The sum of the arguments of the `acc` instructions at marked
addresses. -/
def markedTotal (p : Program) (marks : Array Bool) : Int := markedSum p.toList marks.toList

/-- The states at the head of the loop of a run from an accumulator,
with the steps that the run took before. -/
inductive AtHead (p : Program) (a₀ : Int) : List Step → State → Prop
  | start : AtHead p a₀ [] (State.initial p.size a₀)
  | move {steps : List Step} {s t : State} {i : Instruction} : AtHead p a₀ steps s →
      s.turn p = .ok (.moved i t) →
      AtHead p a₀ (steps ++ [Step.between steps.length s i t]) t

end Program

/-! ### The invariant -/

/-- What the marks and the accumulator tell of the steps that a run
took. -/
structure State.LoopInvariant (p : Program) (a₀ : Int) (steps : List Step) (s : State) :
    Prop where
  size_marks : s.marks.size = p.size
  marked_iff : ∀ pc, s.Marked pc ↔ pc ∈ steps.map (·.pc)
  nodup : (steps.map (·.pc)).Nodup
  count_marks : s.marks.count true = steps.length
  accumulator_eq : s.accumulator = a₀ + p.markedTotal s.marks

namespace State.LoopInvariant

variable {p : Program} {a₀ : Int} {steps : List Step} {s : State} {i : Instruction}

/-- Before the first turn there is no step and no mark. -/
theorem initial (p : Program) (a₀ : Int) :
    (State.initial p.size a₀).LoopInvariant p a₀ [] where
  size_marks := by simp [State.initial]
  marked_iff pc := by simp [not_marked_initial]
  nodup := List.nodup_nil
  count_marks := by simp [State.initial, Array.count_replicate]
  accumulator_eq := by simp [State.initial, Program.markedTotal, markedSum_replicate]

/-- There is a mark for every address of the program. -/
theorem size_le (h : s.LoopInvariant p a₀ steps) : p.size ≤ s.marks.size :=
  Nat.le_of_eq h.size_marks.symm

/-- A move adds one step, one mark, and what the instruction gains. -/
theorem advance (h : s.LoopInvariant p a₀ steps) (hi : p.at? s.pc = some i)
    (hm : ¬s.Marked s.pc) (index : Int) :
    (s.advance i).LoopInvariant p a₀ (steps ++ [Step.between index s i (s.advance i)]) := by
  obtain ⟨h₀, h₁⟩ := Program.exists_at?_iff.mp ⟨i, hi⟩
  have hr : s.pc.toNat < s.marks.size := by
    have := h.size_marks
    omega
  -- There is a mark to read, and it is not set.
  have hfalse : s.marks[s.pc.toNat] = false := by
    cases hmark : s.marks[s.pc.toNat] with
    | false => rfl
    | true =>
        have hget : s.marks[s.pc.toNat]? = some true := by
          rw [Array.getElem?_eq_getElem hr, hmark]
        exact absurd ⟨h₀, hget⟩ hm
  have hmarks : (s.advance i).marks = s.marks.set s.pc.toNat true := by
    simp [State.advance, Array.setIfInBounds, hr]
  have hpcs : (steps ++ [Step.between index s i (s.advance i)]).map (·.pc)
      = steps.map (·.pc) ++ [s.pc] := by
    simp [Step.between]
  refine ⟨?_, fun pc => ?_, ?_, ?_, ?_⟩
  · rw [size_marks_advance, h.size_marks]
  · rw [marked_advance_iff h₀ (by omega), h.marked_iff, hpcs, List.mem_append,
      List.mem_singleton]
  · -- A second step at one address would find the mark of the first.
    rw [hpcs, List.nodup_append]
    refine ⟨h.nodup, by simp, fun pc hpc pc' hpc' => ?_⟩
    rintro rfl
    rw [List.mem_singleton] at hpc'
    exact hm ((h.marked_iff s.pc).mpr (hpc' ▸ hpc))
  · rw [hmarks, Array.count_set, hfalse, if_neg (by decide), if_pos (by decide),
      h.count_marks, List.length_append]
    rfl
  · have hx : p.toList[s.pc.toNat]? = some i := Program.getElem?_of_at? hi
    have hk : s.marks.toList[s.pc.toNat]? = some false := by
      rw [Array.getElem?_toList, Array.getElem?_eq_getElem hr, hfalse]
    show s.accumulator + i.effect.gain = a₀ + p.markedTotal (s.advance i).marks
    rw [hmarks, Program.markedTotal, Array.toList_set, markedSum_set hx hk, h.accumulator_eq,
      Program.markedTotal, Int.add_assoc]

end State.LoopInvariant

namespace Program

variable {p : Program} {a₀ : Int} {steps : List Step} {s : State}

namespace AtHead

/-- The invariant holds at the head of the loop. -/
theorem loopInvariant (h : p.AtHead a₀ steps s) : s.LoopInvariant p a₀ steps := by
  induction h with
  | start => exact State.LoopInvariant.initial p a₀
  | @move steps s t i _ hturn ih =>
      obtain ⟨hi, hm, rfl⟩ := State.of_turn_moved ih.size_le hturn
      exact ih.advance hi hm steps.length

/-- At the head of the loop no turn fails. -/
theorem exists_turn (h : p.AtHead a₀ steps s) : ∃ turn, s.turn p = .ok turn :=
  State.exists_turn h.loopInvariant.size_le

/-- Where `check` finds no end, the machine is at an unmarked address of
the program, and carries out the instruction there. -/
theorem of_check_eq_none (h : p.AtHead a₀ steps s) (hcheck : s.check p = .ok none) :
    0 ≤ s.pc ∧ s.pc < p.size ∧ s.marks[s.pc.toNat]? = some false
      ∧ ∃ i, p.toList[s.pc.toNat]? = some i ∧ s.turn p = .ok (.moved i (s.advance i)) := by
  obtain ⟨h₀, h₁, hr, hmark⟩ := State.check_eq_none hcheck
  have hfalse : s.marks[s.pc.toNat]? = some false := by
    rw [Array.getElem?_eq_getElem hr, hmark]
  refine ⟨h₀, h₁, hfalse, ?_⟩
  rcases State.turn_cases h.loopInvariant.size_le with ⟨hend, -⟩ | ⟨i, hi, -, hmoved⟩
  · -- An end would be outside of the program or at a marked address.
    rcases hend with hout | ⟨-, htrue⟩
    · have := at?_eq_none_iff.mp hout
      omega
    · cases hfalse.symm.trans htrue
  · exact ⟨i, getElem?_of_at? hi, hmoved⟩

/-- A quiet run goes on from the head of the loop, with the steps that
it took before. -/
theorem runFrom_eq (h : p.AtHead a₀ steps s) :
    p.runFrom false 0 (State.initial p.size a₀)
      = Trace.prepend steps <$> p.runFrom false steps.length s := by
  induction h with
  | start => exact (id_map _).symm
  | @move steps s t i _ hturn ih =>
      rw [ih, runFrom_quiet_of_moved hturn, Functor.map_map, List.length_append]
      simp only [Trace.prepend_prepend]
      rfl

/-- From the head of the loop a run comes to its end. -/
theorem exists_ended (h : p.AtHead a₀ steps s) :
    ∃ steps final o, p.AtHead a₀ steps final ∧ final.turn p = .ok (.ended o) := by
  -- Every move uses up an unmarked address.
  induction hu : s.unmarked using Nat.strongRecOn generalizing steps s with
  | ind u ih =>
      obtain ⟨turn, hturn⟩ := h.exists_turn
      cases turn with
      | ended o => exact ⟨steps, s, o, h, hturn⟩
      | moved i t =>
          have hlt : t.unmarked < u := hu ▸ State.unmarked_lt_of_turn hturn
          exact ih _ hlt (h.move hturn) rfl

end AtHead

/-- A quiet run from `a₀` comes to an end at the head of the loop. -/
theorem exists_atHead_ended (p : Program) (a₀ : Int) :
    ∃ final, p.AtHead a₀ (p.quietTrace a₀).steps final
      ∧ final.turn p = .ok (.ended (p.outcome a₀))
      ∧ p.runFrom false 0 (State.initial p.size a₀) = pure (p.quietTrace a₀) := by
  have hstart : p.AtHead a₀ [] (State.initial p.size a₀) := .start
  obtain ⟨steps, final, o, hhead, hended⟩ := hstart.exists_ended
  have hrun : p.runFrom false 0 (State.initial p.size a₀) = pure ⟨steps, o⟩ := by
    rw [hhead.runFrom_eq, runFrom_of_ended hended, map_pure, Trace.prepend, List.append_nil]
  have htrace : p.quietTrace a₀ = ⟨steps, o⟩ := by
    refine Transcript.value_eq ?_ _
    rw [trace_eq, hrun, pure_bind]
    rfl
  rw [outcome, htrace]
  exact ⟨final, hhead, hended, hrun⟩

/-- The steps before a state at the head of the loop are the first ones
of the run. -/
theorem AtHead.prefix_quietTrace (h : p.AtHead a₀ steps s) :
    steps <+: (p.quietTrace a₀).steps := by
  obtain ⟨final, -, -, hrun⟩ := p.exists_atHead_ended a₀
  rw [h.runFrom_eq] at hrun
  -- What the run goes on to is its value without the steps before.
  have hending := congrArg Transcript.ending hrun
  rw [Transcript.ending_map, Transcript.ending_pure] at hending
  cases hrest : (p.runFrom false steps.length s).ending with
  | error e =>
      rw [hrest] at hending
      cases hending
  | ok rest =>
      rw [hrest] at hending
      have hvalue : Trace.prepend steps rest = p.quietTrace a₀ := Except.ok.inj hending
      rw [← hvalue]
      exact List.prefix_append steps rest.steps

/-- At the head of the loop there is a mark for every address of the
program; the marked addresses are those of the steps taken before, each
of them taken once; and the accumulator is the one at the start and the
arguments of the `acc` instructions at marked addresses. No turn fails
there, and where `check` finds no end the address is an unmarked one of
the program, looked up from the front. So a quiet execution always has
an outcome, and an accumulator in it is told by the marks in the state
where the run ends. -/
theorem loop_head_accounts (p : Program) (a₀ : Int) :
    (∀ steps s, p.AtHead a₀ steps s →
      s.LoopInvariant p a₀ steps
      ∧ (∃ turn, s.turn p = .ok turn)
      ∧ (s.check p = .ok none →
          0 ≤ s.pc ∧ s.pc < p.size ∧ s.marks[s.pc.toNat]? = some false
          ∧ (∀ access, ∃ h, position access p.size s.pc = .ok ⟨s.pc.toNat, h⟩)
          ∧ ∃ i, p.toList[s.pc.toNat]? = some i ∧ s.turn p = .ok (.moved i (s.advance i))))
    ∧ ∀ workers, ∃ t final,
        (p.trace { initial := a₀, workers }).ending = .ok t
        ∧ (p.execute { initial := a₀, workers }).ending = .ok t.outcome
        ∧ (∀ steps s, p.AtHead a₀ steps s → steps <+: t.steps)
        ∧ p.AtHead a₀ t.steps final
        ∧ final.turn p = .ok (.ended t.outcome)
        ∧ ∀ a, t.outcome = .halted a ∨ t.outcome = .infiniteLoop a →
            a = a₀ + p.markedTotal final.marks := by
  constructor
  · intro steps s h
    refine ⟨h.loopInvariant, h.exists_turn, fun hcheck => ?_⟩
    obtain ⟨h₀, h₁, hmark, hturn⟩ := h.of_check_eq_none hcheck
    exact ⟨h₀, h₁, hmark, fun access => ⟨by omega, position_of_nonneg access h₀ h₁⟩, hturn⟩
  · intro workers
    -- The state where the run ends is at a head, too, so its marks account for the accumulator.
    obtain ⟨final, hhead, hended, -⟩ := p.exists_atHead_ended a₀
    have hinvariant := hhead.loopInvariant
    refine ⟨p.quietTrace a₀, final, by rw [trace_quiet], by rw [execute_quiet]; rfl,
      fun steps s h => h.prefix_quietTrace, hhead, hended, fun a ha => ?_⟩
    have houtcome : p.outcome a₀ = p.outcomeAt final.configuration :=
      (State.of_turn_ended hinvariant.size_le hended).2
    have ha' : p.outcome a₀ = .halted a ∨ p.outcome a₀ = .infiniteLoop a := ha
    rw [houtcome] at ha'
    rw [← hinvariant.accumulator_eq, accumulator_of_outcomeAt ha']
    rfl

/-- The demonstration from `3`, after its first two turns: the marks of
`0` and `1` tell both steps and the accumulator, and the third turn is
at an unmarked address. The run ends with `8`, of which the marks
account for `5`. -/
theorem loop_head_accounts_demonstration :
    (∃ steps s, demonstration.AtHead 3 steps s ∧ s.check demonstration = .ok none
      ∧ s.accumulator = 3 + demonstration.markedTotal s.marks ∧ s.marks.count true = 2
      ∧ s.marks[s.pc.toNat]? = some false)
    ∧ ∃ steps final, demonstration.AtHead 3 steps final
      ∧ demonstration.markedTotal final.marks = 5 := by
  obtain ⟨hheads, hends⟩ := loop_head_accounts demonstration 3
  constructor
  · have hfirst : (State.initial demonstration.size 3).turn demonstration
        = .ok (.moved ⟨.nop, 0⟩
            ⟨1, 3, #[true, false, false, false, false, false, false, false, false]⟩) := by
      cbv
    have hsecond : State.turn demonstration
          ⟨1, 3, #[true, false, false, false, false, false, false, false, false]⟩
        = .ok (.moved ⟨.acc, 1⟩
            ⟨2, 4, #[true, true, false, false, false, false, false, false, false]⟩) := by
      cbv
    have hhead := (AtHead.start.move hfirst).move hsecond
    have hcheck : State.check demonstration
          ⟨2, 4, #[true, true, false, false, false, false, false, false, false]⟩
        = .ok none := by
      cbv
    obtain ⟨hinvariant, -, hnone⟩ := hheads _ _ hhead
    exact ⟨_, _, hhead, hcheck, hinvariant.accumulator_eq, hinvariant.count_marks,
      (hnone hcheck).2.2.1⟩
  · have hexecute : (demonstration.execute { initial := 3, workers := 0 }).ending
        = .ok (.infiniteLoop 8) := by
      cbv
    obtain ⟨t, final, -, ht, -, hhead, -, haccumulator⟩ := hends 0
    have houtcome : t.outcome = .infiniteLoop 8 := Except.ok.inj (ht.symm.trans hexecute)
    have h := haccumulator 8 (.inr houtcome)
    exact ⟨t.steps, final, hhead, by omega⟩

end Program

end AccumulatorMachine
