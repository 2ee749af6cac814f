import AccumulatorMachine.Proofs.Ending
import AccumulatorMachine.Proofs.Recording
import AccumulatorMachine.Proofs.Turn

/-!
# `AccumulatorMachine.Proofs.Run`: a run follows the plain machine

A run takes turns until the machine ends, and keeps marks. The plain
machine keeps none, so the marks are expressed by what it did:
`p.Passed c n pc` says that it was at the address `pc` in one of the
first `n` configurations from `c`, and `p.StopsAt c n d` that it comes
to `d` in `n` steps without being anywhere twice, and that `d` is
outside of the program or at an address that it was at before.

The invariant of the run is `State.Follows`: the state is where the
plain machine is after as many steps, and the marked addresses are the
ones it passed. `Follows.advance` keeps it over a move. From that,
`runFrom_eq` says what a run comes to. The results, for a run without
printing:

* `exists_stopsAt_trace`: a run always ends; it takes the steps of the
  plain machine until the plain machine stops in the sense of
  `StopsAt`, and the outcome is `outcomeAt` there;
* `StopsAt.unique`: there is just one such place;
* `quietTrace` and `outcome` are the values that a run therefore has;
* `mem_visited_iff`: the run visits what the plain machine passed.
-/

set_option autoImplicit false

namespace AccumulatorMachine

/-- The step that an instruction makes of a configuration. -/
def Step.ofConfiguration (index : Int) (c : Configuration) (i : Instruction) : Step :=
  { index, pc := c.pc, instruction := i, before := c.accumulator,
    after := (c.advance i).accumulator, next := (c.advance i).pc }

namespace Program

variable {p q : Program} {c d e : Configuration} {n : Nat}

/-! ### Where the plain machine was -/

/-- Whether the plain machine is at an address in one of its first `n`
configurations. -/
def Passed (p : Program) (c : Configuration) (n : Nat) (pc : Int) : Prop :=
  ∃ k < n, ∃ e, p.after k c = some e ∧ e.pc = pc

/-- Whether the first `n` configurations are at different addresses. -/
def Fresh (p : Program) (c : Configuration) (n : Nat) : Prop :=
  ∀ k < n, ∀ e, p.after k c = some e → ¬p.Passed c k e.pc

/-- Whether the plain machine comes to `d` in `n` steps, without being
anywhere twice, and `d` is outside of the program or at an address that
it was at before. -/
structure StopsAt (p : Program) (c : Configuration) (n : Nat) (d : Configuration) : Prop where
  reached : p.after n c = some d
  fresh : p.Fresh c n
  ended : p.at? d.pc = none ∨ p.Passed c n d.pc

/-- At the start no position was passed, not even the first one. -/
theorem passed_zero (p : Program) (c : Configuration) (pc : Int) : ¬p.Passed c 0 pc := by
  rintro ⟨k, hk, -⟩
  exact absurd hk (Nat.not_lt_zero k)

/-- One more configuration adds its address. -/
theorem passed_succ_iff (h : p.after n c = some d) {pc : Int} :
    p.Passed c (n + 1) pc ↔ p.Passed c n pc ∨ pc = d.pc := by
  constructor
  · rintro ⟨k, hk, e, he, hpc⟩
    rcases Nat.lt_succ_iff_lt_or_eq.mp hk with hk | rfl
    · exact .inl ⟨k, hk, e, he, hpc⟩
    · rw [h, Option.some.injEq] at he
      exact .inr (by rw [he, hpc])
  · rintro (⟨k, hk, e, he, hpc⟩ | rfl)
    · exact ⟨k, Nat.lt_succ_of_lt hk, e, he, hpc⟩
    · exact ⟨n, Nat.lt_succ_self n, d, h, rfl⟩

/-- The steps stay apart from each other as long as each comes to a position
that was not passed. -/
theorem Fresh.succ (h : p.Fresh c n) (hd : p.after n c = some d) (hnew : ¬p.Passed c n d.pc) :
    p.Fresh c (n + 1) := by
  intro k hk e he
  rcases Nat.lt_succ_iff_lt_or_eq.mp hk with hk | rfl
  · exact h k hk e he
  · rw [hd, Option.some.injEq] at he
    rwa [← he]

/-- A machine that comes to an address that it passed goes on
forever. -/
theorem Passed.exists_after (h : p.Passed c n d.pc) (hn : p.after n c = some d) (m : Nat) :
    ∃ e, p.after m c = some e := by
  obtain ⟨k, hk, e, he, hpc⟩ := h
  exact exists_after_of_revisit he hn hk hpc m

namespace StopsAt

variable {m : Nat}

/-- The machine does not stop while it comes to new addresses. -/
theorem le_of_fresh (h : p.StopsAt c n d) (hm : p.after m c = some e) (hfresh : p.Fresh c m) :
    m ≤ n := by
  refine Nat.le_of_not_lt fun hnm => ?_
  rcases h.ended with hout | hpass
  · obtain ⟨i, hi⟩ := exists_at?_of_lt h.reached hm hnm
    cases hout.symm.trans hi
  · exact hfresh n hnm d h.reached hpass

/-- The machine stops in one place. -/
theorem unique (h : p.StopsAt c n d) (h' : p.StopsAt c m e) : n = m ∧ d = e := by
  obtain rfl : n = m :=
    Nat.le_antisymm (h'.le_of_fresh h.reached h.fresh) (h.le_of_fresh h'.reached h'.fresh)
  exact ⟨rfl, Option.some.inj (h.reached.symm.trans h'.reached)⟩

/-- If the plain machine comes to an address outside of the program, it
stops there. -/
theorem eq_of_at?_eq_none (h : p.StopsAt c n d) (hm : p.after m c = some e)
    (he : p.at? e.pc = none) : n = m ∧ d = e := by
  obtain rfl : n = m := by
    rcases Nat.lt_trichotomy n m with hlt | heq | hgt
    · -- The stop is no end of the plain machine, so it is a second
      -- visit; but then the plain machine goes on after `m` steps.
      obtain ⟨i, hi⟩ := exists_at?_of_lt h.reached hm hlt
      have hpass := h.ended.resolve_left fun hout => by cases hout.symm.trans hi
      obtain ⟨f, hf⟩ := hpass.exists_after h.reached (m + 1)
      obtain ⟨j, hj⟩ := exists_at?_of_lt hm hf (Nat.lt_succ_self m)
      cases he.symm.trans hj
    · exact heq
    · obtain ⟨i, hi⟩ := exists_at?_of_lt hm h.reached hgt
      cases he.symm.trans hi
  exact ⟨rfl, Option.some.inj (h.reached.symm.trans hm)⟩

/-- A program of the same size that does the same at the addresses on
the way stops in the same place. -/
theorem congr (h : p.StopsAt c n d) (hsize : q.size = p.size)
    (hagree : ∀ pc, p.Passed c n pc → p.AgreeAt q pc) : q.StopsAt c n d := by
  -- Until the stop both programs lead to the same configurations, and
  -- so they pass the same addresses.
  have hafter : ∀ m ≤ n, q.after m c = p.after m c := fun m hm =>
    after_congr fun k hk e he => hagree e.pc ⟨k, by omega, e, he, rfl⟩
  have hpassed : ∀ m ≤ n, ∀ pc, q.Passed c m pc ↔ p.Passed c m pc := by
    intro m hm pc
    refine exists_congr fun k => and_congr_right fun hk => ?_
    rw [hafter k (by omega)]
  refine ⟨(hafter n (Nat.le_refl n)).trans h.reached, fun k hk e he => ?_, ?_⟩
  · rw [hpassed k (by omega)]
    exact h.fresh k hk e ((hafter k (by omega)).symm.trans he)
  · -- Only the size tells which addresses are outside.
    rw [hpassed n (Nat.le_refl n), at?_eq_none_iff, hsize, ← at?_eq_none_iff]
    exact h.ended

end StopsAt

end Program

/-! ### The invariant -/

/-- Whether a state is where the plain machine is after `n` steps from
`c`, with marks for the addresses that it passed, and none of them
passed twice. -/
structure State.Follows (p : Program) (c : Configuration) (n : Nat) (s : State) : Prop where
  size_le : p.size ≤ s.marks.size
  reached : p.after n c = some s.configuration
  marked_iff : ∀ pc, s.Marked pc ↔ p.Passed c n pc
  fresh : p.Fresh c n

namespace State.Follows

variable {p : Program} {c : Configuration} {n : Nat} {s t : State} {i : Instruction}

/-- The state before the first turn follows the plain machine. -/
theorem initial (p : Program) (a : Int) :
    (State.initial p.size a).Follows p ⟨0, a⟩ 0 where
  size_le := by simp [State.initial]
  reached := rfl
  marked_iff pc := by simp [not_marked_initial, Program.passed_zero]
  fresh k hk := absurd hk (Nat.not_lt_zero k)

/-- A move follows the plain machine. -/
theorem advance (h : s.Follows p c n) (hi : p.at? s.pc = some i) (hm : ¬s.Marked s.pc) :
    (s.advance i).Follows p c (n + 1) := by
  obtain ⟨h₀, h₁⟩ := Program.exists_at?_iff.mp ⟨i, hi⟩
  have hsize := h.size_le
  refine ⟨by simpa using hsize, ?_, fun pc => ?_, ?_⟩
  · rw [configuration_advance]
    exact Program.after_succ_of_eq_some h.reached hi
  · -- The move marks what the plain machine passes with this step.
    rw [marked_advance_iff h₀ (by omega), Program.passed_succ_iff h.reached, h.marked_iff]
    rfl
  · exact h.fresh.succ h.reached fun hp => hm ((h.marked_iff _).mpr hp)

/-- A state where the machine ends is where the plain machine stops. -/
theorem stopsAt (h : s.Follows p c n) (hend : p.at? s.pc = none ∨ s.Marked s.pc) :
    p.StopsAt c n s.configuration where
  reached := h.reached
  fresh := h.fresh
  ended := hend.imp_right (h.marked_iff s.pc).mp

/-- The state after a turn that moves follows the plain machine. -/
theorem turn_moved (h : s.Follows p c n) (hturn : s.turn p = .ok (.moved i t)) :
    t.Follows p c (n + 1) := by
  obtain ⟨hi, hm, rfl⟩ := State.of_turn_moved h.size_le hturn
  exact h.advance hi hm

/-- A turn that ends does so where the plain machine stops. -/
theorem turn_ended (h : s.Follows p c n) {o : Outcome} (hturn : s.turn p = .ok (.ended o)) :
    p.StopsAt c n s.configuration ∧ o = p.outcomeAt s.configuration := by
  obtain ⟨hend, rfl⟩ := State.of_turn_ended h.size_le hturn
  exact ⟨h.stopsAt hend, rfl⟩

end State.Follows

namespace Program

variable {p : Program} {c d e : Configuration} {n : Nat} {s : State}

/-! ### What a run comes to -/

/-- The first `k` steps of the plain machine, with numbers from `n`
on. -/
def steps (p : Program) : Nat → Nat → Configuration → List Step
  | 0, _, _ => []
  | k + 1, n, c =>
    match p.at? c.pc with
    | some i => Step.ofConfiguration n c i :: p.steps k (n + 1) (c.advance i)
    | none => []

/-- A quiet run that follows the plain machine ends where the plain
machine stops, with the steps until then. -/
theorem runFrom_eq (h : s.Follows p c n) :
    ∃ k d, p.StopsAt c (n + k) d
      ∧ p.runFrom false n s = pure ⟨p.steps k n s.configuration, p.outcomeAt d⟩ := by
  -- Every move uses up an unmarked address.
  induction hu : s.unmarked using Nat.strongRecOn generalizing n s with
  | ind u ih =>
      rcases State.turn_cases h.size_le with ⟨hend, hturn⟩ | ⟨i, hi, hm, hturn⟩
      · exact ⟨0, s.configuration, h.stopsAt hend, runFrom_of_ended hturn false n⟩
      · have hlt : (s.advance i).unmarked < u := hu ▸ State.unmarked_lt_of_turn hturn
        obtain ⟨k, d, hstop, hrun⟩ := ih _ hlt (h.advance hi hm) rfl
        refine ⟨k + 1, d, by rwa [show n + (k + 1) = n + 1 + k by omega], ?_⟩
        rw [runFrom_quiet_of_moved hturn, hrun, map_pure]
        -- The step of the run is the one that the plain machine makes.
        have hsteps : p.steps (k + 1) n s.configuration
            = Step.between n s i (s.advance i)
              :: p.steps k (n + 1) (s.advance i).configuration := by
          have hat : p.at? s.configuration.pc = some i := hi
          simp only [steps, hat, State.configuration_advance, Step.between,
            Step.ofConfiguration]
          rw [← State.configuration_advance]
          rfl
        rw [hsteps]
        rfl

/-- The plain machine has as many steps as it takes. -/
theorem length_steps {k : Nat} (h : p.after k c = some d) (n : Nat) :
    (p.steps k n c).length = k := by
  induction k generalizing n c with
  | zero => rfl
  | succ k ih =>
      obtain ⟨i, hi⟩ := exists_at?_of_lt (after_zero p c) h (Nat.zero_lt_succ k)
      rw [after_succ_of_at? hi] at h
      simp only [steps, hi, List.length_cons, ih h]

/-- The step with number `n + m` leads from the configuration after `m`
steps. -/
theorem getElem?_steps {i : Instruction} {k m : Nat} (hm : p.after m c = some e)
    (hi : p.at? e.pc = some i) (hk : m < k) (n : Nat) :
    (p.steps k n c)[m]? = some (Step.ofConfiguration (n + m : Nat) e i) := by
  induction m generalizing k n c with
  | zero =>
      obtain ⟨k, rfl⟩ : ∃ r, k = r + 1 := ⟨k - 1, by omega⟩
      rw [after_zero, Option.some.injEq] at hm
      subst hm
      simp [steps, hi]
  | succ m ih =>
      obtain ⟨k, rfl⟩ : ∃ r, k = r + 1 := ⟨k - 1, by omega⟩
      obtain ⟨j, hj⟩ := exists_at?_of_lt (after_zero p c) hm (Nat.zero_lt_succ m)
      rw [after_succ_of_at? hj] at hm
      simp only [steps, hj, List.getElem?_cons_succ]
      rw [ih hm (by omega) (n + 1), show n + 1 + m = n + (m + 1) by omega]

/-- The steps are those from the configurations on the way. -/
theorem mem_steps_iff {k : Nat} (h : p.after k c = some d) {step : Step} :
    step ∈ p.steps k n c ↔ ∃ m < k, ∃ e i, p.after m c = some e ∧ p.at? e.pc = some i
      ∧ step = Step.ofConfiguration (n + m : Nat) e i := by
  constructor
  · intro hmem
    -- The place of the step in the list is the time of its
    -- configuration.
    obtain ⟨m, hm⟩ := List.mem_iff_getElem?.mp hmem
    have hmk : m < k := by
      rw [← length_steps h n]
      exact (List.getElem?_eq_some_iff.mp hm).1
    obtain ⟨e, he, -⟩ := exists_after_of_le h (Nat.le_of_lt hmk)
    obtain ⟨i, hi⟩ := exists_at?_of_lt he h hmk
    rw [getElem?_steps he hi hmk, Option.some.injEq] at hm
    exact ⟨m, hmk, e, i, he, hi, hm.symm⟩
  · rintro ⟨m, hmk, e, i, he, hi, rfl⟩
    exact List.mem_of_getElem? (getElem?_steps he hi hmk n)

/-- The addresses of the steps are those that the plain machine
passed. -/
theorem mem_map_pc_steps_iff {k : Nat} (h : p.after k c = some d) {pc : Int} :
    pc ∈ (p.steps k n c).map (·.pc) ↔ p.Passed c k pc := by
  rw [List.mem_map]
  constructor
  · rintro ⟨step, hstep, rfl⟩
    obtain ⟨m, hm, e, i, he, -, rfl⟩ := (mem_steps_iff h).mp hstep
    exact ⟨m, hm, e, he, rfl⟩
  · rintro ⟨m, hm, e, he, rfl⟩
    obtain ⟨i, hi⟩ := exists_at?_of_lt he h hm
    exact ⟨_, (mem_steps_iff h).mpr ⟨m, hm, e, i, he, hi, rfl⟩, rfl⟩

/-- A quiet run writes into the log that it ended, and has a value: the
steps of the plain machine until it stops, and the outcome there. -/
theorem exists_stopsAt_trace (p : Program) (a workers : Int) :
    ∃ k d, p.StopsAt ⟨0, a⟩ k d
      ∧ p.trace { initial := a, workers }
        = ⟨[.logged (.executed k (p.outcomeAt d).record)],
            .ok ⟨p.steps k 0 ⟨0, a⟩, p.outcomeAt d⟩⟩ := by
  obtain ⟨k, d, hstop, hrun⟩ := runFrom_eq (State.Follows.initial p a)
  rw [Nat.zero_add] at hstop
  refine ⟨k, d, hstop, ?_⟩
  have hlen : (p.steps k 0 (State.initial p.size a).configuration).length = k :=
    length_steps hstop.reached 0
  rw [trace_eq, hrun, pure_bind]
  simp only [Bool.false_eq_true, if_false, hlen]
  rfl

/-! ### The values of a quiet run -/

/-- A quiet run prints no integer, so it has a value whatever the program
is. -/
theorem exists_ending_trace (p : Program) (a : Int) :
    ∃ t, (p.trace { initial := a }).ending = .ok t := by
  obtain ⟨k, d, -, h⟩ := p.exists_stopsAt_trace a 0
  exact ⟨_, by rw [h]⟩

/-- What a quiet run from an accumulator tells. -/
def quietTrace (p : Program) (a : Int) : Trace :=
  (p.trace { initial := a }).value (p.exists_ending_trace a)

/-- How a quiet run from an accumulator ends. -/
def outcome (p : Program) (a : Int) : Outcome := (p.quietTrace a).outcome

/-- A quiet run takes the steps of the plain machine until the plain
machine stops. -/
theorem exists_stopsAt_quietTrace (p : Program) (a : Int) :
    ∃ k d, p.StopsAt ⟨0, a⟩ k d
      ∧ p.quietTrace a = ⟨p.steps k 0 ⟨0, a⟩, p.outcomeAt d⟩ := by
  obtain ⟨k, d, hstop, h⟩ := p.exists_stopsAt_trace a 0
  exact ⟨k, d, hstop, Transcript.value_eq (by rw [h]) _⟩

/-- The whole of a quiet run: its value, and what it writes into the
log. -/
theorem trace_quiet (p : Program) (a workers : Int) :
    p.trace { initial := a, workers }
      = ⟨[.logged (.executed (p.quietTrace a).steps.length (p.outcome a).record)],
          .ok (p.quietTrace a)⟩ := by
  -- Both runs stop where the plain machine does, so they are the same.
  obtain ⟨k, d, hstop, h⟩ := p.exists_stopsAt_trace a workers
  obtain ⟨k', d', hstop', h'⟩ := p.exists_stopsAt_quietTrace a
  obtain ⟨rfl, rfl⟩ := hstop.unique hstop'
  rw [h, outcome, h', length_steps hstop.reached]

/-- The number of workers makes no difference to a quiet execution. -/
theorem execute_quiet (p : Program) (a workers : Int) :
    p.execute { initial := a, workers }
      = ⟨[.logged (.executed (p.quietTrace a).steps.length (p.outcome a).record)],
          .ok (p.outcome a)⟩ := by
  rw [execute_eq, trace_quiet]
  rfl

/-- The outcome is the one of the place where the plain machine
stops. -/
theorem outcome_eq {k : Nat} {a : Int} (h : p.StopsAt ⟨0, a⟩ k d) :
    p.outcome a = p.outcomeAt d := by
  obtain ⟨k', d', hstop, h'⟩ := p.exists_stopsAt_quietTrace a
  obtain ⟨-, rfl⟩ := h.unique hstop
  rw [outcome, h']

/-- A run visits what the plain machine passes until it stops. -/
theorem mem_visited_iff {k : Nat} {a pc : Int} (h : p.StopsAt ⟨0, a⟩ k d) :
    pc ∈ (p.quietTrace a).visited ↔ p.Passed ⟨0, a⟩ k pc := by
  obtain ⟨k', d', hstop, htrace⟩ := p.exists_stopsAt_quietTrace a
  obtain ⟨rfl, rfl⟩ := h.unique hstop
  rw [htrace]
  exact mem_map_pc_steps_iff h.reached

/-- A run visits addresses of the program. -/
theorem exists_at?_of_mem_visited {a pc : Int} (h : pc ∈ (p.quietTrace a).visited) :
    ∃ i, p.at? pc = some i := by
  obtain ⟨k, d, hstop, -⟩ := p.exists_stopsAt_quietTrace a
  obtain ⟨m, hm, e, he, rfl⟩ := (mem_visited_iff hstop).mp h
  exact exists_at?_of_lt he hstop.reached hm

/-- So they are counted from the front. -/
theorem exists_natCast_of_mem_visited {a pc : Int} (h : pc ∈ (p.quietTrace a).visited) :
    ∃ i : Nat, pc = i := by
  obtain ⟨h₀, -⟩ := exists_at?_iff.mp (exists_at?_of_mem_visited h)
  exact ⟨pc.toNat, (Int.toNat_of_nonneg h₀).symm⟩

end Program

end AccumulatorMachine
