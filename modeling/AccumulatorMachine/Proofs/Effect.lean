import AccumulatorMachine.Proofs.Detour
import AccumulatorMachine.Proofs.Verbose

/-!
# `AccumulatorMachine.Proofs.Effect`: only the effects of visited instructions matter

A run looks at an instruction for what it does, and looks at no
instruction that it does not come to. Take two programs of one size
that do the same at every address that the run of the first one visits.
Then the second one runs through the same states: it stops in the same
place (`StopsAt.congr`), and its steps differ from those of the first
one in nothing but the instruction (`forall₂_steps`).

The hypothesis is about one of the two runs. That is enough, since a
run that has done the same so far is at an address where the programs
do the same.

* `Instruction.Idle` are the changes of an instruction that leave its
  effect as it was. They change no outcome wherever they are made.
* A swap at an address that the run does not visit changes no outcome,
  and so the attempt there ends as the program does
  (`outcome_swapAt_of_not_visited`).
-/

set_option autoImplicit false

namespace AccumulatorMachine

/-- Whether two steps are the same but for the instruction. -/
def Step.SameMove (s u : Step) : Prop := u = { s with instruction := u.instruction }

/-- Changes of an instruction that leave what it does as it was: none
at all, another argument of a `nop`, and a `nop` in place of a jump to
the next address or the other way round. -/
inductive Instruction.Idle : Instruction → Instruction → Prop
  | none (x : Instruction) : Idle x x
  | argument (v w : Int) : Idle ⟨.nop, v⟩ ⟨.nop, w⟩
  | nopToJmp (v : Int) : Idle ⟨.nop, v⟩ ⟨.jmp, 1⟩
  | jmpToNop (v : Int) : Idle ⟨.jmp, 1⟩ ⟨.nop, v⟩

/-- Two instructions that only step to the next one are alike, whatever
their opcodes and arguments are. -/
theorem Instruction.Idle.effect_eq {x y : Instruction} (h : x.Idle y) : x.effect = y.effect := by
  cases h with
  | none => rfl
  | argument v w => rfl
  | nopToJmp v => rfl
  | jmpToNop v => rfl

namespace Program

variable {p q : Program} {c d : Configuration} {x : Instruction} {a : Int} {i k : Nat}

/-! ### Where programs agree -/

/-- Where a program has an instruction, one that agrees with it has one
with the same effect. -/
theorem AgreeAt.exists_at? {pc : Int} (h : p.AgreeAt q pc) (hx : p.at? pc = some x) :
    ∃ y, q.at? pc = some y ∧ x.effect = y.effect := by
  rw [AgreeAt, hx, Option.map_some] at h
  obtain ⟨y, hy, heffect⟩ := Option.map_eq_some_iff.mp h.symm
  exact ⟨y, hy, heffect.symm⟩

/-- Programs of one size agree where they differ in an idle change. -/
theorem agreeAt_of_idle (hsize : q.size = p.size)
    (h : ∀ x y, p.toList[i]? = some x → q.toList[i]? = some y → x.Idle y) : p.AgreeAt q i := by
  rw [AgreeAt, at?_natCast, at?_natCast]
  have hlength : q.toList.length = p.toList.length := by
    rw [length_toList, length_toList, hsize]
  by_cases hi : i < p.toList.length
  · have hi' : i < q.toList.length := by omega
    have hidle := h _ _ (List.getElem?_eq_getElem hi) (List.getElem?_eq_getElem hi')
    rw [List.getElem?_eq_getElem hi, List.getElem?_eq_getElem hi', Option.map_some,
      Option.map_some, hidle.effect_eq]
  · rw [List.getElem?_eq_none (by omega), List.getElem?_eq_none (by omega)]

/-- Only the size tells the outcome of a place. -/
theorem outcomeAt_congr (hsize : q.size = p.size) (d : Configuration) :
    q.outcomeAt d = p.outcomeAt d := by
  simp only [outcomeAt, hsize]

/-- Programs that do the same on the way take the same steps but for
the instructions. -/
theorem forall₂_steps (hd : p.after k c = some d)
    (h : ∀ m < k, ∀ e, p.after m c = some e → p.AgreeAt q e.pc) (n : Nat) :
    List.Forall₂ Step.SameMove (p.steps k n c) (q.steps k n c) := by
  induction k generalizing n c with
  | zero => exact .nil
  | succ k ih =>
      obtain ⟨x, hx⟩ := exists_at?_of_lt (after_zero p c) hd (Nat.zero_lt_succ k)
      obtain ⟨y, hy, heffect⟩ := (h 0 (Nat.zero_lt_succ k) c rfl).exists_at? hx
      have hadvance : c.advance y = c.advance x := by
        rw [Configuration.advance_eq, Configuration.advance_eq, heffect]
      rw [after_succ_of_at? hx] at hd
      -- What is on the way from the next configuration is on the way
      -- from `c` a step later.
      have hrest := ih hd (fun m hm e he => h (m + 1) (Nat.succ_lt_succ hm) e
        (by rwa [after_succ_of_at? hx])) (n + 1)
      simp only [steps, hx, hy, hadvance]
      refine .cons ?_ hrest
      simp only [Step.SameMove, Step.ofConfiguration, hadvance]

/-! ### Runs of programs that agree -/

section
variable (hsize : q.size = p.size)
  (hagree : ∀ pc ∈ (p.quietTrace a).visited, p.AgreeAt q pc)
include hsize hagree

/-- A program that does the same at the visited addresses has the same
outcome and the same steps but for the instructions. -/
theorem quietTrace_congr :
    q.outcome a = p.outcome a
      ∧ List.Forall₂ Step.SameMove (p.quietTrace a).steps (q.quietTrace a).steps := by
  obtain ⟨k, d, hstop, htrace⟩ := p.exists_stopsAt_quietTrace a
  obtain ⟨k', d', hstop', htrace'⟩ := q.exists_stopsAt_quietTrace a
  have hpassed : ∀ pc, p.Passed ⟨0, a⟩ k pc → p.AgreeAt q pc := by
    intro pc hpc
    exact hagree pc ((mem_visited_iff hstop).mpr hpc)
  obtain ⟨rfl, rfl⟩ := (hstop.congr hsize hpassed).unique hstop'
  constructor
  · rw [outcome_eq hstop', outcome_eq hstop, outcomeAt_congr hsize]
  · rw [htrace, htrace']
    exact forall₂_steps hstop.reached (fun m hm e he => hpassed e.pc ⟨m, hm, e, he, rfl⟩) 0

/-- Its execution is the same, also in what it writes into the log. -/
theorem execute_congr (workers : Int) :
    q.execute { initial := a, workers } = p.execute { initial := a, workers } := by
  obtain ⟨houtcome, hsteps⟩ := quietTrace_congr hsize hagree
  rw [execute_quiet, execute_quiet, houtcome, hsteps.length_eq]

end

/-- A swap at an address that is not visited leaves what the program
does at the visited ones. -/
theorem agreeAt_swapAt_of_not_visited (hi : (i : Int) ∉ (p.quietTrace a).visited) :
    ∀ pc ∈ (p.quietTrace a).visited, p.AgreeAt (p.swapAt i) pc := by
  intro pc hpc
  refine agreeAt_swapAt ?_
  rintro rfl
  exact hi hpc

/-- A swap at an address that is not visited changes no outcome. -/
theorem outcome_swapAt_of_not_visited (hi : (i : Int) ∉ (p.quietTrace a).visited) :
    (p.swapAt i).outcome a = p.outcome a :=
  (quietTrace_congr (size_swapAt p i) (agreeAt_swapAt_of_not_visited hi)).1

/-- Take the trace `t` of a quiet run from `a`, and the one from `0` for
the attempts of a survey, which start there. A program of the same size
that does the same at the visited addresses has the same execution, and
its trace agrees in all but the instructions. Idle changes of visited
instructions and any changes of others are such a program, and so is a
swap at an address that is not visited. An attempt of a survey at such
an address has the outcome of the program as it is. -/
theorem effects_decide_execution (p : Program) (a workers : Int) :
    ∃ t t₀, (p.trace { initial := a, workers }).ending = .ok t
      ∧ (p.trace { initial := 0, workers }).ending = .ok t₀
      ∧ (∀ q : Program, q.size = p.size → (∀ pc ∈ t.visited, p.AgreeAt q pc) →
          q.execute { initial := a, workers } = p.execute { initial := a, workers }
          ∧ ∃ u, (q.trace { initial := a, workers }).ending = .ok u ∧ u.outcome = t.outcome
            ∧ List.Forall₂ Step.SameMove t.steps u.steps)
      ∧ (∀ q : Program, q.size = p.size →
          (∀ (i : Nat) x y, p.toList[i]? = some x → q.toList[i]? = some y →
            (i : Int) ∈ t.visited → x.Idle y) →
          q.execute { initial := a, workers } = p.execute { initial := a, workers })
      ∧ (∀ i < p.size, (i : Int) ∉ t.visited → ∃ q, p.toggle i = .ok q
          ∧ q.execute { initial := a, workers } = p.execute { initial := a, workers })
      ∧ (∀ initial workers, ∃ ys, (p.survey { initial, workers }).ending = .ok ys)
      ∧ ∀ settings ys, (p.survey settings).ending = .ok ys →
          ∀ y ∈ ys, y.index ∉ t₀.visited →
            (p.execute { initial := 0, workers }).ending = .ok y.outcome := by
  refine ⟨p.quietTrace a, p.quietTrace 0, by rw [trace_quiet], by rw [trace_quiet],
    ?agree, ?idle, ?swap, fun initial w => ⟨_, p.ending_survey initial w⟩, ?survey⟩
  case agree =>
    intro q hsize hagree
    obtain ⟨houtcome, hsteps⟩ := quietTrace_congr hsize hagree
    exact ⟨execute_congr hsize hagree workers, q.quietTrace a, by rw [trace_quiet], houtcome,
      hsteps⟩
  case idle =>
    intro q hsize hidle
    refine execute_congr hsize (fun pc hpc => ?_) workers
    -- What is visited is an address, so the hypothesis on places from the front is enough.
    obtain ⟨i, rfl⟩ := exists_natCast_of_mem_visited hpc
    exact agreeAt_of_idle hsize fun x y hx hy => hidle i x y hx hy hpc
  case swap =>
    intro i hi hvisit
    have hlt : i < p.toList.length := by rwa [length_toList]
    exact ⟨p.swapAt i, toggle_eq_ok (List.getElem?_eq_getElem hlt),
      execute_congr (size_swapAt p i) (agreeAt_swapAt_of_not_visited hvisit) workers⟩
  case survey =>
    intro settings ys hys y hy hvisit
    -- Every attempt is one at an address of the program, whatever the settings were.
    rw [eq_attempts_of_ending_survey hys] at hy
    obtain ⟨⟨x, i⟩, -, rfl⟩ := List.mem_map.mp hy
    rw [execute_quiet]
    exact congrArg Except.ok (outcome_swapAt_of_not_visited hvisit).symm

/-- The demonstration with a jump to the next address for its `nop`, and
with other instructions at `5` and `8`. -/
def rewired : Program :=
  ofList [⟨.jmp, 1⟩, ⟨.acc, 1⟩, ⟨.jmp, 4⟩, ⟨.acc, 3⟩, ⟨.jmp, -3⟩, ⟨.jmp, 100⟩, ⟨.acc, 1⟩,
    ⟨.jmp, -4⟩, ⟨.nop, 0⟩]

/-- The run of the demonstration from `3` never comes to `5` and `8`, so
it is the run of the rewired program too. -/
theorem effects_decide_execution_demonstration :
    ∃ t, (demonstration.trace { initial := 3, workers := 0 }).ending = .ok t
      ∧ rewired.size = demonstration.size
      ∧ (∀ pc ∈ t.visited, demonstration.AgreeAt rewired pc)
      ∧ rewired.execute { initial := 3, workers := 0 }
        = demonstration.execute { initial := 3, workers := 0 } := by
  have htrace : (demonstration.trace { initial := 3, workers := 0 }).ending
      = .ok ⟨[⟨0, 0, ⟨.nop, 0⟩, 3, 3, 1⟩, ⟨1, 1, ⟨.acc, 1⟩, 3, 4, 2⟩,
          ⟨2, 2, ⟨.jmp, 4⟩, 4, 4, 6⟩, ⟨3, 6, ⟨.acc, 1⟩, 4, 5, 7⟩, ⟨4, 7, ⟨.jmp, -4⟩, 5, 5, 3⟩,
          ⟨5, 3, ⟨.acc, 3⟩, 5, 8, 4⟩, ⟨6, 4, ⟨.jmp, -3⟩, 8, 8, 1⟩], .infiniteLoop 8⟩ := by
    cbv
  obtain ⟨t, -, ht, -, hagree, -⟩ := effects_decide_execution demonstration 3 0
  cases ht.symm.trans htrace
  have hvisited : ∀ pc ∈ ([0, 1, 2, 6, 7, 3, 4] : List Int),
      demonstration.AgreeAt rewired pc := by
    intro pc hpc
    simp only [List.mem_cons, List.not_mem_nil, or_false] at hpc
    rcases hpc with rfl | rfl | rfl | rfl | rfl | rfl | rfl <;> rfl
  exact ⟨_, ht, rfl, hvisited, (hagree rewired rfl hvisited).1⟩

end Program

end AccumulatorMachine
