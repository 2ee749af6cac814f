import Mathlib
import AccumulatorMachine.Proofs.Search

/-!
# `AccumulatorMachine.Proofs.Pool`: attempts under way at the same time

A pool has one task for each attempt of a survey, in the order of the
survey. A task waits, or is under way with a program and a machine of
its own, or has made its attempt. A step of the pool is a step of one
of its tasks, any one of them: it begins the attempt, takes one turn of
its machine, or, if the machine ends, keeps the attempt. A task begins
only while fewer than `w` are under way. A schedule is a sequence of
such steps, so `Relation.ReflTransGen (Pool.Step p w)` leads to what
any interleaving can lead to. Tasks may begin in any order, which
allows more schedules than a queue does.

A pool also keeps the attempts in the order in which they were made,
as `collected`. The results in the order of the survey are `results`.

The invariant of a schedule is `Pool.Valid`: a task never changes its
address, and a machine under way follows the plain machine on its own
program. No step of another task can disturb that, since a step
replaces one task of the list. The main statements:

* `Valid.step`: every step keeps the invariant;
* `Valid.exists_step`: a pool with a task that has not made its attempt
  can take a step, so nothing waits forever;
* `Valid.remaining_lt`: every step uses up some of `remaining`, so a
  schedule comes to an end;
* `Valid.results_eq`: at the end the results are those of a survey
  without workers.

`schedule_irrelevant` puts them together with the choice of the lowest
success, which does not depend on the order of the attempts either
(`lowestSuccess_of_perm`).
-/

set_option autoImplicit false

namespace AccumulatorMachine

/-! ### The choice does not depend on the order -/

/-- Only a list without entries has no lowest one. -/
theorem lowest_eq_none_iff {l : List (Int × Int)} : lowest l = none ↔ l = [] := by
  cases l with
  | nil => simp [lowest]
  | cons x l =>
      simp only [lowest]
      split
      · simp
      · split <;> simp

/-- The lowest entry is an entry, and no other one is lower. -/
theorem lowest_spec {l : List (Int × Int)} {x : Int × Int} (h : lowest l = some x) :
    x ∈ l ∧ ∀ y ∈ l, x.1 ≤ y.1 := by
  induction l generalizing x with
  | nil => cases h
  | cons z l ih =>
      rw [lowest] at h
      cases hl : lowest l with
      | none =>
          simp only [hl, Option.some.injEq] at h
          subst h
          rw [lowest_eq_none_iff.mp hl]
          simp
      | some y =>
          obtain ⟨hy, hle⟩ := ih hl
          -- Either the first entry or the lowest of the others is lower, and it is below all
          -- that the other one is below.
          simp only [hl] at h
          split at h
          · cases h
            rename_i hlt
            refine ⟨List.mem_cons_of_mem z hy, ?_⟩
            rintro u (_ | ⟨_, hu⟩)
            · omega
            · exact hle u hu
          · cases h
            rename_i hlt
            refine ⟨List.mem_cons_self, ?_⟩
            rintro u (_ | ⟨_, hu⟩)
            · omega
            · have := hle u hu
              omega

/-- Where a place names one entry, the order of the entries makes no
difference. -/
theorem lowest_of_perm {l l' : List (Int × Int)} (h : l.Perm l')
    (hinj : ∀ x ∈ l, ∀ y ∈ l, x.1 = y.1 → x = y) : lowest l = lowest l' := by
  cases hx : lowest l with
  | none =>
      rw [lowest_eq_none_iff.mp hx] at h
      rw [List.nil_perm.mp h]
      rfl
  | some x =>
      -- Each is an entry of both lists, so neither is lower.
      obtain ⟨hmem, hle⟩ := lowest_spec hx
      cases hy : lowest l' with
      | none =>
          rw [lowest_eq_none_iff.mp hy] at h
          rw [List.perm_nil.mp h] at hmem
          cases hmem
      | some y =>
          obtain ⟨hmem', hle'⟩ := lowest_spec hy
          have hxy := hle y (h.mem_iff.mpr hmem')
          have hyx := hle' x (h.mem_iff.mp hmem)
          rw [hinj x hmem y (h.mem_iff.mpr hmem') (by omega)]

/-- The lowest success among attempts at different places does not
depend on their order. -/
theorem lowestSuccess_of_perm {l l' : List Attempt} (h : l.Perm l')
    (hinj : ∀ x ∈ l, ∀ y ∈ l, x.index = y.index → x = y) :
    lowestSuccess l = lowestSuccess l' := by
  have hlow : lowest (l.filterMap Attempt.success?) = lowest (l'.filterMap Attempt.success?) := by
    refine lowest_of_perm (h.filterMap _) fun s hs t ht hst => ?_
    -- Successes at one place come from one attempt.
    obtain ⟨x, hx, hxs⟩ := List.mem_filterMap.mp hs
    obtain ⟨y, hy, hyt⟩ := List.mem_filterMap.mp ht
    have hxy : x.index = y.index := by
      rw [← Attempt.index_of_success? (a := s.2) hxs, ← Attempt.index_of_success? (a := t.2) hyt,
        hst]
    rw [hinj x hx y hy hxy] at hxs
    exact Option.some.inj (hxs.symm.trans hyt)
  rw [lowestSuccess, lowestSuccess, hlow, h.length_eq]

/-- Whether an attempt is the one at its address. -/
def Program.IsAttempt (p : Program) (y : Attempt) : Prop :=
  ∃ (x : Instruction) (i : Nat), p.toList[i]? = some x ∧ y = p.attemptAt (x, i)

/-- The address of an attempt tells all of it, so attempts that are made in
any order can be put back in theirs. -/
theorem Program.IsAttempt.eq_of_index_eq {p : Program} {y z : Attempt} (hy : p.IsAttempt y)
    (hz : p.IsAttempt z) (h : y.index = z.index) : y = z := by
  obtain ⟨x, i, hi, rfl⟩ := hy
  obtain ⟨x', i', hi', rfl⟩ := hz
  obtain rfl : i = i' := Int.ofNat.inj h
  obtain rfl : x = x' := Option.some.inj (hi.symm.trans hi')
  rfl

/-- The attempts of a survey are such ones. -/
theorem Program.isAttempt_of_mem_attempts {p : Program} {y : Attempt} (h : y ∈ p.attempts) :
    p.IsAttempt y := by
  obtain ⟨⟨x, i⟩, hmem, rfl⟩ := List.mem_map.mp h
  exact ⟨x, i, (Program.mem_swappable_iff.mp hmem).1, rfl⟩

/-! ### Tasks -/

/-- An attempt of a pool: not begun, under way with its own program and
machine, or made. -/
inductive Task where
  | waiting (index : Nat)
  | running (index : Nat) (changed : Program) (state : State)
  | made (attempt : Attempt)
deriving DecidableEq, Repr

namespace Task

/-- The address of the swap. -/
def index : Task → Int
  | .waiting i => i
  | .running i _ _ => i
  | .made y => y.index

/-- Whether the task is not begun. -/
def isWaiting : Task → Bool
  | .waiting _ => true
  | _ => false

/-- Whether the task is under way. Such tasks take up a worker. -/
def isRunning : Task → Bool
  | .running _ _ _ => true
  | _ => false

/-- The attempt, once it is made. -/
def attempt? : Task → Option Attempt
  | .made y => some y
  | _ => none

/-- One step of a task on a program: to begin with a swapped copy and a
machine before its first turn, to take a turn, and to keep the attempt
when the machine has ended. -/
inductive Step (p : Program) : Task → Task → Prop
  | start {i : Nat} {q : Program} : p.toggle i = .ok q →
      Step p (.waiting i) (.running i q (State.initial q.size 0))
  | move {i : Nat} {q : Program} {s t : State} {x : Instruction} :
      s.turn q = .ok (.moved x t) → Step p (.running i q s) (.running i q t)
  | finish {i : Nat} {q : Program} {s : State} {o : Outcome} {x y : Instruction} :
      s.turn q = .ok (.ended o) → p.get i = .ok x → q.get i = .ok y →
      Step p (.running i q s)
        (.made { index := i, replaced := x, replacement := y, outcome := o })

/-- What holds of a task all the time: it is at an address of the
program, a machine under way follows the plain machine on the swapped
program, and an attempt is the one of a survey. -/
def Ok (p : Program) : Task → Prop
  | .waiting i => ∃ x, p.toList[i]? = some x
  | .running i q s =>
    (∃ x, p.toList[i]? = some x) ∧ q = p.swapAt i ∧ ∃ n, s.Follows q ⟨0, 0⟩ n
  | .made y => p.IsAttempt y

/-- A bound on the steps that a task has before it. -/
def remaining (p : Program) : Task → Nat
  | .waiting _ => p.size + 2
  | .running _ _ s => s.unmarked + 1
  | .made _ => 0

variable {p : Program} {t t' : Task}

/-- A task stays at its address. -/
theorem Step.index_eq (h : Step p t t') : t'.index = t.index := by
  cases h <;> rfl

/-- Every step keeps what holds of a task. -/
theorem Step.ok (h : Step p t t') (ht : t.Ok p) : t'.Ok p := by
  cases h with
  | @start i q hq =>
      obtain ⟨x, hx⟩ := ht
      obtain rfl := Program.eq_swapAt_of_toggle hx hq
      exact ⟨⟨x, hx⟩, rfl, 0, State.Follows.initial _ _⟩
  | @move i q s t x hturn =>
      obtain ⟨hx, rfl, n, hs⟩ := ht
      exact ⟨hx, rfl, n + 1, hs.turn_moved hturn⟩
  | @finish i q s o x y hturn hx hy =>
      obtain ⟨⟨z, hz⟩, rfl, n, hs⟩ := ht
      obtain ⟨hstop, rfl⟩ := hs.turn_ended hturn
      refine ⟨z, i, hz, ?_⟩
      -- What the task looked up is what the attempt of a survey holds.
      obtain rfl : x = z := Except.ok.inj (hx.symm.trans (Program.get_natCast_eq_ok hz))
      obtain rfl : y = x.toggled :=
        Except.ok.inj (hy.symm.trans (Program.get_eq_ok (Program.at?_swapAt_self hz)))
      rw [Program.attemptAt, Program.outcome_eq hstop]

/-- Every step uses up some of what remains. -/
theorem Step.remaining_lt (h : Step p t t') (ht : t.Ok p) : t'.remaining p < t.remaining p := by
  cases h with
  | @start i q hq =>
      -- Nothing is marked yet, and a swap leaves the size as it is.
      obtain ⟨x, hx⟩ := ht
      obtain rfl := Program.eq_swapAt_of_toggle hx hq
      simp [remaining, State.unmarked, State.initial]
  | move hturn => exact Nat.succ_lt_succ (State.unmarked_lt_of_turn hturn)
  | finish => exact Nat.succ_pos _

/-- A task that is under way has a program and a machine of its own. -/
theorem exists_of_isRunning (h : t.isRunning = true) : ∃ i q s, t = .running i q s := by
  cases t with
  | waiting i => cases h
  | running i q s => exact ⟨i, q, s, rfl⟩
  | made y => cases h

/-- A task that tells an attempt has made it. -/
theorem exists_of_attempt?_ne_none (h : t.attempt? ≠ none) : ∃ y, t = .made y := by
  cases t with
  | waiting i => exact absurd rfl h
  | running i q s => exact absurd rfl h
  | made y => exact ⟨y, rfl⟩

/-- Tasks that have all made their attempts are told by them. -/
theorem eq_map_made {l : List Task} (h : ∀ t ∈ l, t.attempt? ≠ none) :
    l = (l.filterMap attempt?).map .made := by
  induction l with
  | nil => rfl
  | cons t l ih =>
      obtain ⟨y, rfl⟩ := exists_of_attempt?_ne_none (h t List.mem_cons_self)
      have hrest := ih fun u hu => h u (List.mem_cons_of_mem _ hu)
      simp only [List.filterMap_cons, attempt?, List.map_cons]
      rw [← hrest]

/-- A task that has not made its attempt can take a step. -/
theorem Ok.exists_step (h : t.Ok p) (ht : t.attempt? = none) : ∃ t', Step p t t' := by
  cases t with
  | waiting i =>
      obtain ⟨x, hx⟩ := h
      exact ⟨_, .start (Program.toggle_eq_ok hx)⟩
  | running i q s =>
      obtain ⟨⟨x, hx⟩, rfl, n, hs⟩ := h
      rcases State.turn_cases hs.size_le with ⟨-, hturn⟩ | ⟨j, -, -, hturn⟩
      · exact ⟨_, .finish hturn (Program.get_natCast_eq_ok hx)
          (Program.get_eq_ok (Program.at?_swapAt_self hx))⟩
      · exact ⟨_, .move hturn⟩
  | made y => cases ht

end Task

/-! ### Pools -/

/-- The tasks of a pool in the order of the survey, and the attempts in
the order in which they were made. -/
structure Pool where
  tasks : List Task
  collected : List Attempt
deriving DecidableEq, Repr

namespace Pool

/-- The pool of a program before anything has begun. -/
def initial (p : Program) : Pool := ⟨p.candidates.map .waiting, []⟩

/-- How many attempts are under way. -/
def running (pool : Pool) : Nat := pool.tasks.countP Task.isRunning

/-- The attempts that were made, in the order of the survey. -/
def results (pool : Pool) : List Attempt := pool.tasks.filterMap Task.attempt?

/-- One step of a pool with `w` workers. -/
inductive Step (p : Program) (w : Int) : Pool → Pool → Prop
  | mk {before rest : List Task} {t t' : Task} {collected : List Attempt} :
      Task.Step p t t' →
      (t.isWaiting = true → (running ⟨before ++ t :: rest, collected⟩ : Int) < w) →
      Step p w ⟨before ++ t :: rest, collected⟩
        ⟨before ++ t' :: rest, collected ++ t'.attempt?.toList⟩

/-- A bound on the steps that a pool has before it. -/
def remaining (p : Program) (pool : Pool) : Nat := (pool.tasks.map (Task.remaining p)).sum

/-- The invariant of a schedule. -/
structure Valid (p : Program) (w : Int) (pool : Pool) : Prop where
  index_eq : pool.tasks.map Task.index = p.candidates.map fun (i : Nat) => (i : Int)
  ok : ∀ t ∈ pool.tasks, t.Ok p
  running_le : (pool.running : Int) ≤ w
  perm : pool.collected.Perm pool.results

variable {p : Program} {w : Int} {pool next : Pool}

/-- At first every candidate has a task, no task is under way, and nothing
is collected. -/
theorem valid_initial (p : Program) (hw : 0 < w) : (initial p).Valid p w where
  index_eq := by
    rw [initial, List.map_map]
    rfl
  ok := by
    intro t ht
    obtain ⟨i, hi, rfl⟩ := List.mem_map.mp ht
    obtain ⟨⟨x, j⟩, hmem, rfl⟩ := List.mem_map.mp hi
    exact ⟨x, (Program.mem_swappable_iff.mp hmem).1⟩
  running_le := by
    have h : (initial p).running = 0 := by
      rw [running, List.countP_eq_zero]
      intro t ht
      obtain ⟨i, -, rfl⟩ := List.mem_map.mp ht
      exact Bool.false_ne_true
    omega
  perm := by
    have h : (initial p).results = [] := by
      rw [results, List.filterMap_eq_nil_iff]
      intro t ht
      obtain ⟨i, -, rfl⟩ := List.mem_map.mp ht
      rfl
    rw [h]
    rfl

/-- A task that takes a step has made no attempt before. -/
theorem attempt?_of_step {t t' : Task} (h : Task.Step p t t') : t.attempt? = none := by
  cases h <;> rfl

/-- A task that goes on running or begins is one of those under way. -/
theorem running_step (before rest : List Task) (collected collected' : List Attempt)
    {t t' : Task} (h : Task.Step p t t') :
    running ⟨before ++ t' :: rest, collected'⟩
      ≤ running ⟨before ++ t :: rest, collected⟩ + if t.isWaiting then 1 else 0 := by
  simp only [running, List.countP_append, List.countP_cons]
  cases h with
  | start hq => simp [Task.isRunning, Task.isWaiting]; omega
  | move hturn => simp [Task.isRunning]
  | finish hturn hx hy => simp [Task.isRunning]; omega

/-- Every step keeps the invariant. -/
theorem Valid.step (h : pool.Valid p w) (hstep : Step p w pool next) : next.Valid p w := by
  cases hstep with
  | @mk before rest t t' collected htask hw =>
      have hindex := h.index_eq
      have hperm := h.perm
      refine ⟨?_, ?_, ?_, ?_⟩
      · rw [← hindex]
        simp only [List.map_append, List.map_cons, htask.index_eq]
      · -- The other tasks are as they were.
        intro u hu
        rcases List.mem_append.mp hu with hu | hu
        · exact h.ok u (List.mem_append_left _ hu)
        · rcases List.mem_cons.mp hu with rfl | hu
          · exact htask.ok (h.ok t (List.mem_append_right _ List.mem_cons_self))
          · exact h.ok u (List.mem_append_right _ (List.mem_cons_of_mem t hu))
      · -- Only a task that begins adds to those under way, and it waits
        -- until there is room.
        have hle := running_step before rest collected (collected ++ t'.attempt?.toList) htask
        have hold := h.running_le
        split at hle
        · rename_i hwait
          have := hw hwait
          omega
        · omega
      · -- The new attempt is the last one made, wherever its task stands.
        simp only [results, List.filterMap_append, List.filterMap_cons,
          attempt?_of_step htask] at hperm ⊢
        cases t'.attempt? with
        | none => simpa using hperm
        | some y =>
            refine List.Perm.trans ?_ List.perm_middle.symm
            exact (List.perm_append_singleton y collected).trans (hperm.cons y)

/-- Every step uses up some of what remains. -/
theorem Valid.remaining_lt (h : pool.Valid p w) (hstep : Step p w pool next) :
    next.remaining p < pool.remaining p := by
  cases hstep with
  | @mk before rest t t' collected htask hw =>
      have hlt := htask.remaining_lt (h.ok t (List.mem_append_right _ List.mem_cons_self))
      simp only [remaining, List.map_append, List.map_cons, List.sum_append, List.sum_cons]
      omega

/-- A pool where some attempt has not been made can take a step. -/
theorem Valid.exists_step (h : pool.Valid p w) (hw : 0 < w)
    (hopen : ∃ t ∈ pool.tasks, t.attempt? = none) : ∃ next, Step p w pool next := by
  obtain ⟨tasks, collected⟩ := pool
  by_cases hrun : ∃ t ∈ tasks, t.isRunning = true
  · -- A machine that is under way can take a turn.
    obtain ⟨t, ht, hr⟩ := hrun
    obtain ⟨i, q, s, rfl⟩ := Task.exists_of_isRunning hr
    obtain ⟨before, rest, rfl⟩ := List.append_of_mem ht
    obtain ⟨t', htask⟩ := (h.ok _ ht).exists_step rfl
    exact ⟨_, .mk htask fun hwait => by cases hwait⟩
  · -- Otherwise no worker is busy, and a task that waits can begin.
    obtain ⟨t, ht, hnone⟩ := hopen
    obtain ⟨t', htask⟩ := (h.ok t ht).exists_step hnone
    have hzero : running ⟨tasks, collected⟩ = 0 := by
      rw [running, List.countP_eq_zero]
      exact fun u hu hr => hrun ⟨u, hu, hr⟩
    obtain ⟨before, rest, rfl⟩ := List.append_of_mem ht
    exact ⟨_, .mk htask fun _ => by omega⟩

/-- Attempts of one program are told by their addresses. -/
theorem eq_of_map_index_eq {l l' : List Attempt} (hl : ∀ x ∈ l, p.IsAttempt x)
    (hl' : ∀ x ∈ l', p.IsAttempt x) (h : l.map Attempt.index = l'.map Attempt.index) :
    l = l' := by
  induction l generalizing l' with
  | nil => simpa using h.symm
  | cons x l ih =>
      cases l' with
      | nil => simp at h
      | cons y l' =>
          simp only [List.map_cons, List.cons.injEq] at h
          have hx := hl x List.mem_cons_self
          have hrest := ih (fun u hu => hl u (List.mem_cons_of_mem x hu))
            (fun u hu => hl' u (List.mem_cons_of_mem y hu)) h.2
          rw [hx.eq_of_index_eq (hl' y List.mem_cons_self) h.1, hrest]

/-- At the end the results are those of a survey. -/
theorem Valid.results_eq (h : pool.Valid p w) (hall : ∀ t ∈ pool.tasks, t.attempt? ≠ none) :
    pool.results = p.attempts := by
  have htasks := Task.eq_map_made hall
  -- The addresses never changed, and an address tells the attempt.
  refine eq_of_map_index_eq (p := p) (fun y hy => ?_)
    (fun y hy => Program.isAttempt_of_mem_attempts hy) ?_
  · refine h.ok (.made y) ?_
    rw [htasks]
    exact List.mem_map_of_mem hy
  · have hindex := h.index_eq
    rw [htasks, List.map_map] at hindex
    rw [Program.attempts, List.map_map]
    exact hindex.trans List.map_map

/-! ### Schedules -/

/-- The invariant holds all along a schedule. -/
theorem valid_of_schedule (hw : 0 < w)
    (h : Relation.ReflTransGen (Step p w) (initial p) pool) : pool.Valid p w := by
  induction h with
  | refl => exact valid_initial p hw
  | tail _ hstep ih => exact ih.step hstep

/-- There is no schedule without an end. -/
theorem exists_not_step (hw : 0 < w) (f : Nat → Pool) (h₀ : f 0 = initial p) :
    ∃ n, ¬Step p w (f n) (f (n + 1)) := by
  by_contra! hsteps
  have hvalid : ∀ n, (f n).Valid p w := by
    intro n
    induction n with
    | zero => exact h₀ ▸ valid_initial p hw
    | succ n ih => exact ih.step (hsteps n)
  -- What remains would go down forever.
  have hdown : StrictAnti fun n => (f n).remaining p :=
    strictAnti_nat_of_succ_lt fun n => (hvalid n).remaining_lt (hsteps n)
  exact not_strictAnti_of_wellFoundedLT _ hdown

/-- A schedule that cannot go on has made all attempts. -/
theorem Valid.results_eq_of_no_step (h : pool.Valid p w) (hw : 0 < w)
    (hend : ∀ next, ¬Step p w pool next) : pool.results = p.attempts := by
  refine h.results_eq fun t ht hnone => ?_
  obtain ⟨next, hstep⟩ := h.exists_step hw ⟨t, ht, hnone⟩
  exact hend next hstep

end Pool

namespace Program

/-- With any number of workers a search picks the lowest success of the
survey. What it finds is what a search without workers finds. -/
theorem ending_repair_threaded (p : Program) (initial : Int) {w : Int} (hw : 0 < w) :
    ∃ r₀, (p.repair { initial, workers := 0 }).ending = .ok r₀
      ∧ (p.repair { initial, workers := w }).ending = .ok (lowestSuccess p.attempts)
      ∧ lowestSuccess p.attempts
        = r₀.withAttempts (p.toList.countP Instruction.isToggleable) := by
  refine ⟨firstSuccess 0 p.attempts, ?_, ?_, ?_⟩
  · rw [ending_repair]
    rfl
  · rw [ending_repair, if_pos hw]
  · rw [lowestSuccess_eq p.pairwise_attempts 0, attempts, List.length_map, length_swappable]

/-- The order of the attempts of a survey makes no difference to the
choice. -/
theorem lowestSuccess_attempts_of_perm (p : Program) {l : List Attempt} (h : l.Perm p.attempts) :
    lowestSuccess l = lowestSuccess p.attempts := by
  refine lowestSuccess_of_perm h fun x hx y hy hxy => ?_
  exact (isAttempt_of_mem_attempts (h.mem_iff.mp hx)).eq_of_index_eq
    (isAttempt_of_mem_attempts (h.mem_iff.mp hy)) hxy

/-- Take a program and `w` workers. A survey has the same attempts with
them as without any, and a search finds the same repair and makes as
many attempts as there are instructions to swap. Every schedule of the
pool comes to an end, keeps at most `w` attempts under way, and ends
with the attempts of the survey, in whatever order they were made. The
choice of the lowest success is the same for every order. -/
theorem schedule_irrelevant (p : Program) (initial w : Int) (hw : 0 < w) :
    ∃ attempts r r₀,
      (p.survey { initial, workers := 0 }).ending = .ok attempts
      ∧ (p.survey { initial, workers := w }).ending = .ok attempts
      ∧ (p.repair { initial, workers := 0 }).ending = .ok r₀
      ∧ (p.repair { initial, workers := w }).ending = .ok r
      ∧ r.record.found = r₀.record.found
      ∧ r.record.index = r₀.record.index
      ∧ r.record.accumulator = r₀.record.accumulator
      ∧ r.attempts = p.toList.countP Instruction.isToggleable
      ∧ (∀ f : Nat → Pool, f 0 = Pool.initial p → ∃ n, ¬Pool.Step p w (f n) (f (n + 1)))
      ∧ (∀ pool, Relation.ReflTransGen (Pool.Step p w) (Pool.initial p) pool →
          (pool.running : Int) ≤ w
          ∧ ((∀ next, ¬Pool.Step p w pool next) →
              pool.results = attempts ∧ pool.collected.Perm attempts
                ∧ lowestSuccess pool.results = r ∧ lowestSuccess pool.collected = r))
      ∧ ∀ l, l.Perm attempts → lowestSuccess l = r := by
  obtain ⟨r₀, hseq, hthr, hr⟩ := p.ending_repair_threaded initial hw
  refine ⟨p.attempts, lowestSuccess p.attempts, r₀, p.ending_survey initial 0,
    p.ending_survey initial w, hseq, hthr, ?_, ?_, ?_, ?_, fun f h₀ => Pool.exists_not_step hw f h₀,
    ?_, fun l hl => p.lowestSuccess_attempts_of_perm hl⟩
  · rw [hr, Repair.record_withAttempts]
  · rw [hr, Repair.record_withAttempts]
  · rw [hr, Repair.record_withAttempts]
  · rw [hr, Repair.attempts_withAttempts]
  · intro pool hschedule
    -- The invariant holds at every point of a schedule. Where no step is left it says what the
    -- results are.
    have hvalid := Pool.valid_of_schedule hw hschedule
    refine ⟨hvalid.running_le, fun hend => ?_⟩
    have hresults := hvalid.results_eq_of_no_step hw hend
    have hperm : pool.collected.Perm p.attempts := hresults ▸ hvalid.perm
    exact ⟨hresults, hperm, by rw [hresults], p.lowestSuccess_attempts_of_perm hperm⟩

/-- Two workers on the demonstration end with the repair at `7` after
four attempts, by every schedule. -/
theorem schedule_irrelevant_demonstration :
    (0 : Int) < 2 ∧ ∀ pool,
      Relation.ReflTransGen (Pool.Step demonstration 2) (Pool.initial demonstration) pool →
      (∀ next, ¬Pool.Step demonstration 2 pool next) →
      lowestSuccess pool.collected = .repaired 7 8 4 := by
  refine ⟨by decide, fun pool hschedule hend => ?_⟩
  obtain ⟨attempts, r, r₀, -, -, -, hr, -, -, -, -, -, hpools, -⟩ :=
    schedule_irrelevant demonstration 0 2 (by decide)
  have hrepair : (demonstration.repair { initial := 0, workers := 2 }).ending
      = .ok (.repaired 7 8 4) := by cbv
  obtain rfl : r = .repaired 7 8 4 := Except.ok.inj (hr.symm.trans hrepair)
  exact ((hpools pool hschedule).2 hend).2.2.2

end Program

end AccumulatorMachine
