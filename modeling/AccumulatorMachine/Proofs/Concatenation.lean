import AccumulatorMachine.Proofs.LoopDetection

/-!
# `AccumulatorMachine.Proofs.Concatenation`: one program after another

`p ++ q` holds the instructions of `p` and then those of `q`. If `p`
halts, it does so at the address just past it, which is the first
instruction of `q` now. So the run of `p ++ q` is the run of `p` and
then the run of `q` from the accumulator that `p` ended with. `relocate`
is what the place in the longer program makes of the run of `q`: its
addresses lie `p.size` further on, and its steps are counted on from
those of `p`.

For the plain machine the two parts are `after_append_left` and
`after_append_right`. The run with marks may not come to an address of
`p` again while it is in `q`: `passed_append_iff` tells the addresses
that it has passed, which are those of `p` in the first part and those
of `q` in the second, and `Fresh.append` follows from it.

* `quietTrace_append`: where `q` ends other than by a jump back into `p`,
  the longer program ends.
* `steps_append_prefix`: in any case the longer program takes the steps
  of both runs first.

`execution_append` puts this together, and tells when a jump back into
`p` is the end.
-/

set_option autoImplicit false

namespace AccumulatorMachine

/-! ### Relocation -/

/-- The configuration some addresses further on. -/
def Configuration.relocate (c : Configuration) (distance : Int) : Configuration :=
  ⟨c.pc + distance, c.accumulator⟩

/-- The step some turns later and some addresses further on. -/
def Step.relocate (s : Step) (turns distance : Int) : Step :=
  { s with index := s.index + turns, pc := s.pc + distance, next := s.next + distance }

/-- The outcome of a run some addresses further on. -/
def Outcome.relocate : Outcome → Int → Outcome
  | .halted a, _ => .halted a
  | .infiniteLoop a, _ => .infiniteLoop a
  | .jumpOutOfBounds pc, distance => .jumpOutOfBounds (pc + distance)

/-- No instruction looks at the address that it is at. -/
theorem Configuration.advance_relocate (c : Configuration) (distance : Int) (i : Instruction) :
    (c.relocate distance).advance i = (c.advance i).relocate distance := by
  simp only [advance_eq, relocate, Configuration.mk.injEq, and_true]
  omega

/-- The first address of the second program is the end of the first. -/
theorem Configuration.relocate_start (a distance : Int) :
    (⟨0, a⟩ : Configuration).relocate distance = ⟨distance, a⟩ := by
  rw [relocate, Int.zero_add]

/-- A step of the second program is recorded in the whole with its index and
its positions moved, and with the same accumulators. -/
theorem Step.ofConfiguration_relocate (index turns distance : Int) (c : Configuration)
    (i : Instruction) :
    Step.ofConfiguration (index + turns) (c.relocate distance) i
      = (Step.ofConfiguration index c i).relocate turns distance := by
  simp only [ofConfiguration, Configuration.advance_relocate]
  rfl

namespace Program

/-! ### The program of two programs -/

/-- The instructions of one program and then those of another. -/
protected def append (p q : Program) : Program := ⟨p.instructions ++ q.instructions⟩

instance : Append Program := ⟨Program.append⟩

variable {p q : Program} {c d : Configuration} {i : Instruction} {a : Int} {k m n : Nat}

/-- Instructions of the first program come first. -/
@[simp]
theorem toList_append (p q : Program) : (p ++ q).toList = p.toList ++ q.toList := by
  show (p.instructions ++ q.instructions).toList = _
  exact Array.toList_append

/-- The second program begins where the first one ends. -/
@[simp]
theorem size_append (p q : Program) : (p ++ q).size = p.size + q.size := by
  rw [← length_toList, toList_append, List.length_append, length_toList, length_toList]

/-- The addresses of the first program are where they were. -/
theorem at?_append_left {pc : Int} (h : p.at? pc = some i) : (p ++ q).at? pc = some i := by
  obtain ⟨h₀, h₁⟩ := exists_at?_iff.mp ⟨i, h⟩
  have hlt : pc.toNat < p.toList.length := by
    rw [length_toList]
    omega
  have hget := getElem?_of_at? h
  simp only [at?, h₀, if_true, toList_append]
  rw [List.getElem?_append_left hlt, hget]

/-- The addresses of the second program come after those of the
first. -/
theorem at?_append_right {pc : Int} (h : q.at? pc = some i) :
    (p ++ q).at? (pc + p.size) = some i := by
  obtain ⟨h₀, h₁⟩ := exists_at?_iff.mp ⟨i, h⟩
  have hget := getElem?_of_at? h
  have hle : p.toList.length ≤ (pc + p.size).toNat := by
    rw [length_toList]
    omega
  have hplace : (pc + p.size).toNat - p.toList.length = pc.toNat := by
    rw [length_toList]
    omega
  have hnonneg : 0 ≤ pc + p.size := by omega
  simp only [at?, hnonneg, if_true, toList_append]
  rw [List.getElem?_append_right hle, hplace, hget]

/-! ### The plain machine in a longer program -/

/-- What the first program does, the longer one does. -/
theorem after_append_left (h : p.after n c = some d) : (p ++ q).after n c = some d := by
  rw [← h]
  refine after_congr fun m hm e he => agreeAt_of_eq ?_
  -- All configurations before the last one are at addresses of `p`.
  obtain ⟨i, hi⟩ := exists_at?_of_lt he h hm
  rw [hi, at?_append_left hi]

/-- What the second program does, the longer one does further on. -/
theorem after_append_right (h : q.after n c = some d) :
    (p ++ q).after n (c.relocate p.size) = some (d.relocate p.size) := by
  induction n generalizing c with
  | zero =>
      rw [after_zero, Option.some.injEq] at h
      rw [after_zero, h]
  | succ n ih =>
      obtain ⟨i, hi⟩ := exists_at?_of_lt (after_zero q c) h (Nat.zero_lt_succ n)
      rw [after_succ_of_at? hi] at h
      have hi' : (p ++ q).at? (c.relocate p.size).pc = some i := at?_append_right hi
      rw [after_succ_of_at? hi', Configuration.advance_relocate]
      exact ih h

/-- If the first program comes to its end, the longer one goes on with
the second. -/
theorem after_append (hp : p.after m c = some ⟨p.size, a⟩) (hq : q.after n ⟨0, a⟩ = some d) :
    (p ++ q).after (m + n) c = some (d.relocate p.size) := by
  rw [after_add_of_eq_some (after_append_left hp), ← Configuration.relocate_start]
  exact after_append_right hq

/-! ### Where the longer program was -/

/-- While the first program goes on, the longer one passes the same
addresses. -/
theorem passed_append_left_iff (h : p.after n c = some d) {pc : Int} :
    (p ++ q).Passed c n pc ↔ p.Passed c n pc := by
  refine exists_congr fun k => and_congr_right fun hk => ?_
  obtain ⟨e, he, -⟩ := exists_after_of_le h (Nat.le_of_lt hk)
  rw [he, after_append_left he]

/-- A program that is still going on passed addresses of its own. -/
theorem Passed.lt_size {pc : Int} (h : p.Passed c n pc) (hd : p.after n c = some d) :
    0 ≤ pc ∧ pc < p.size := by
  obtain ⟨k, hk, e, he, rfl⟩ := h
  exact exists_at?_iff.mp (exists_at?_of_lt he hd hk)

/-- In the second program the longer one has passed what the first one
passed, and further on what the second one did. -/
theorem passed_append_iff (hp : p.after m c = some ⟨p.size, a⟩)
    (hq : q.after n ⟨0, a⟩ = some d) {pc : Int} :
    (p ++ q).Passed c (m + n) pc ↔ p.Passed c m pc ∨ q.Passed ⟨0, a⟩ n (pc - p.size) := by
  constructor
  · rintro ⟨k, hk, e, he, rfl⟩
    rcases Nat.lt_or_ge k m with hkm | hmk
    · exact .inl ((passed_append_left_iff hp).mp ⟨k, hkm, e, he, rfl⟩)
    · -- The time in `q` is counted from the end of `p`.
      obtain ⟨j, rfl⟩ := Nat.exists_eq_add_of_le hmk
      obtain ⟨f, hf, -⟩ := exists_after_of_le hq (show j ≤ n by omega)
      rw [after_append hp hf, Option.some.injEq] at he
      subst he
      refine .inr ⟨j, by omega, f, hf, ?_⟩
      simp only [Configuration.relocate]
      omega
  · rintro (h | ⟨j, hj, f, hf, hpc⟩)
    · obtain ⟨k, hk, e, he, hpc⟩ := (passed_append_left_iff (q := q) hp).mpr h
      exact ⟨k, by omega, e, he, hpc⟩
    · refine ⟨m + j, by omega, f.relocate p.size, after_append hp hf, ?_⟩
      simp only [Configuration.relocate]
      omega

/-- Runs that are nowhere twice are so one after the other. -/
theorem Fresh.append (hpf : p.Fresh c m) (hqf : q.Fresh ⟨0, a⟩ n)
    (hp : p.after m c = some ⟨p.size, a⟩) (hq : q.after n ⟨0, a⟩ = some d) :
    (p ++ q).Fresh c (m + n) := by
  intro k hk e he
  rcases Nat.lt_or_ge k m with hkm | hmk
  · -- While `p` goes on, the whole has passed what `p` has.
    obtain ⟨f, hf, -⟩ := exists_after_of_le hp (Nat.le_of_lt hkm)
    rw [after_append_left hf, Option.some.injEq] at he
    subst he
    rw [passed_append_left_iff hf]
    exact hpf k hkm f hf
  · -- In `q` an address may be new for one of two reasons.
    obtain ⟨j, rfl⟩ := Nat.exists_eq_add_of_le hmk
    have hjn : j < n := by omega
    obtain ⟨f, hf, -⟩ := exists_after_of_le hq (Nat.le_of_lt hjn)
    rw [after_append hp hf, Option.some.injEq] at he
    subst he
    rw [passed_append_iff hp hf]
    obtain ⟨h₀, -⟩ := exists_at?_iff.mp (exists_at?_of_lt hf hq hjn)
    rintro (hpass | hpass)
    · -- What `p` passed lies before all of `q`.
      have hlt := (hpass.lt_size hp).2
      simp only [Configuration.relocate] at hlt
      omega
    · simp only [Configuration.relocate, Int.add_sub_cancel] at hpass
      exact hqf j hjn f hf hpass

/-! ### The steps of the longer program -/

/-- The first steps and then the steps from where they lead. -/
theorem steps_add (h : p.after m c = some d) (k n : Nat) :
    p.steps (m + k) n c = p.steps m n c ++ p.steps k (n + m) d := by
  induction m generalizing n c with
  | zero =>
      rw [after_zero, Option.some.injEq] at h
      rw [h, Nat.zero_add, Nat.add_zero]
      rfl
  | succ m ih =>
      obtain ⟨i, hi⟩ := exists_at?_of_lt (after_zero p c) h (Nat.zero_lt_succ m)
      rw [after_succ_of_at? hi] at h
      rw [show m + 1 + k = m + k + 1 by omega, show n + (m + 1) = n + 1 + m by omega]
      simp only [steps, hi, List.cons_append]
      rw [ih h]

/-- As long as the first program runs on its own, the whole takes the same
steps. -/
theorem steps_append_left (h : p.after k c = some d) (n : Nat) :
    (p ++ q).steps k n c = p.steps k n c := by
  induction k generalizing n c with
  | zero => rfl
  | succ k ih =>
      obtain ⟨i, hi⟩ := exists_at?_of_lt (after_zero p c) h (Nat.zero_lt_succ k)
      rw [after_succ_of_at? hi] at h
      simp only [steps, hi, at?_append_left hi]
      rw [ih h]

/-- From the start of the second part on, the whole takes the steps of that
part, moved by the size of the first one. Nothing of the second part refers
to the first unless a jump leaves it, and then the run of the part is over.
-/
theorem steps_append_right (h : q.after k c = some d) (n turns : Nat) :
    (p ++ q).steps k (n + turns) (c.relocate p.size)
      = (q.steps k n c).map (·.relocate turns p.size) := by
  induction k generalizing n c with
  | zero => rfl
  | succ k ih =>
      obtain ⟨i, hi⟩ := exists_at?_of_lt (after_zero q c) h (Nat.zero_lt_succ k)
      rw [after_succ_of_at? hi] at h
      have hi' : (p ++ q).at? (c.relocate p.size).pc = some i := at?_append_right hi
      have hrest := ih h (n + 1)
      rw [show n + 1 + turns = n + turns + 1 by omega] at hrest
      simp only [steps, hi, hi', List.map_cons, Configuration.advance_relocate]
      rw [hrest, ← Step.ofConfiguration_relocate, Int.natCast_add]

/-- The steps of both programs, one after the other. -/
theorem steps_append (hp : p.after m c = some ⟨p.size, a⟩) (hq : q.after n ⟨0, a⟩ = some d) :
    (p ++ q).steps (m + n) 0 c
      = p.steps m 0 c ++ (q.steps n 0 ⟨0, a⟩).map (·.relocate m p.size) := by
  rw [steps_add (after_append_left hp), steps_append_left hp, ← Configuration.relocate_start,
    steps_append_right hq]

/-! ### The run of the longer program -/

/-- The longer program stops where the second one does, unless that is
inside of the first. -/
theorem StopsAt.append (hp : p.StopsAt c m ⟨p.size, a⟩) (hq : q.StopsAt ⟨0, a⟩ n d)
    (hout : d.pc < -p.size ∨ 0 ≤ d.pc) : (p ++ q).StopsAt c (m + n) (d.relocate p.size) where
  reached := after_append hp.reached hq.reached
  fresh := hp.fresh.append hq.fresh hp.reached hq.reached
  ended := by
    rcases hq.ended with hnone | hpass
    · left
      have hbounds := at?_eq_none_iff.mp hnone
      rw [at?_eq_none_iff, size_append]
      simp only [Configuration.relocate]
      omega
    · right
      rw [passed_append_iff hp.reached hq.reached]
      right
      simpa only [Configuration.relocate, Int.add_sub_cancel] using hpass

/-- Addresses that lie further on in a longer program tell the same. -/
theorem outcomeAt_append (hout : d.pc < -p.size ∨ 0 ≤ d.pc) :
    (p ++ q).outcomeAt (d.relocate p.size) = (q.outcomeAt d).relocate p.size := by
  have hend : d.pc + p.size = (p ++ q).size ↔ d.pc = q.size := by
    rw [size_append]
    omega
  have hjump : d.pc + p.size < 0 ∨ (p ++ q).size < d.pc + p.size ↔ d.pc < 0 ∨ q.size < d.pc := by
    rw [size_append]
    omega
  simp only [outcomeAt, Configuration.relocate, hend, hjump]
  split
  · rfl
  · split
    · rfl
    · rfl

section
variable {a₀ : Int} (hhalt : p.outcome a₀ = .halted a)
include hhalt

/-- A program that halts stops at the address just past it. -/
theorem exists_stopsAt_size :
    ∃ m, p.StopsAt ⟨0, a₀⟩ m ⟨p.size, a⟩ ∧ (p.quietTrace a₀).steps = p.steps m 0 ⟨0, a₀⟩
      ∧ (p.quietTrace a₀).steps.length = m := by
  obtain ⟨m, d, hstop, htrace⟩ := p.exists_stopsAt_quietTrace a₀
  rw [outcome_eq hstop] at hhalt
  obtain rfl := outcomeAt_eq_halted_iff.mp hhalt
  refine ⟨m, hstop, by rw [htrace], ?_⟩
  rw [htrace, length_steps hstop.reached]

/-- The longer program takes the steps of both runs before any other. -/
theorem steps_append_prefix :
    (p.quietTrace a₀).steps
        ++ (q.quietTrace a).steps.map (·.relocate (p.quietTrace a₀).steps.length p.size)
      <+: ((p ++ q).quietTrace a₀).steps := by
  obtain ⟨m, hp, hpsteps, hlen⟩ := exists_stopsAt_size hhalt
  obtain ⟨n, d, hq, hqtrace⟩ := q.exists_stopsAt_quietTrace a
  obtain ⟨k, e, hstop, htrace⟩ := (p ++ q).exists_stopsAt_quietTrace a₀
  have hreached := after_append hp.reached hq.reached
  -- The run cannot stop while it is at a new address of the program.
  have hle : m + n ≤ k :=
    hstop.le_of_fresh hreached (hp.fresh.append hq.fresh hp.reached hq.reached)
  obtain ⟨r, rfl⟩ := Nat.exists_eq_add_of_le hle
  rw [hlen, hpsteps, hqtrace, htrace, steps_add hreached,
    steps_append hp.reached hq.reached]
  exact List.prefix_append _ _

/-- If the second program does not jump back into the first, its end is
the end. -/
theorem quietTrace_append
    (hjump : ∀ pc, q.outcome a = .jumpOutOfBounds pc → q.size < pc ∨ pc < -p.size) :
    (p ++ q).quietTrace a₀
      = { steps := (p.quietTrace a₀).steps
            ++ (q.quietTrace a).steps.map (·.relocate (p.quietTrace a₀).steps.length p.size)
          outcome := (q.outcome a).relocate p.size } := by
  obtain ⟨m, hp, hpsteps, hlen⟩ := exists_stopsAt_size hhalt
  obtain ⟨n, d, hq, hqtrace⟩ := q.exists_stopsAt_quietTrace a
  obtain ⟨k, e, hstop, htrace⟩ := (p ++ q).exists_stopsAt_quietTrace a₀
  -- Where `q` stops the whole stops, too, unless that is within `p`.
  have hout : d.pc < -p.size ∨ 0 ≤ d.pc := by
    by_cases hneg : d.pc < 0
    · have houtcome : q.outcome a = .jumpOutOfBounds d.pc := by
        rw [outcome_eq hq]
        exact outcomeAt_eq_jumpOutOfBounds_iff.mpr ⟨rfl, .inl hneg⟩
      have hbounds := hjump d.pc houtcome
      omega
    · exact .inr (by omega)
  obtain ⟨rfl, rfl⟩ := (hp.append hq hout).unique hstop
  rw [hlen, hpsteps, outcome_eq hq, hqtrace, htrace, steps_append hp.reached hq.reached,
    outcomeAt_append hout]

/-- A jump back into the first program is the end exactly if it leads to
where the first program was. -/
theorem length_steps_append_iff {pc : Int} (hpc : q.outcome a = .jumpOutOfBounds pc)
    (h₀ : -p.size ≤ pc) (h₁ : pc < 0) :
    ((p ++ q).quietTrace a₀).steps.length
        = (p.quietTrace a₀).steps.length + (q.quietTrace a).steps.length
      ↔ pc + p.size ∈ (p.quietTrace a₀).visited := by
  obtain ⟨m, hp, -, hlen⟩ := exists_stopsAt_size hhalt
  obtain ⟨n, d, hq, hqtrace⟩ := q.exists_stopsAt_quietTrace a
  obtain ⟨k, e, hstop, htrace⟩ := (p ++ q).exists_stopsAt_quietTrace a₀
  rw [outcome_eq hq] at hpc
  obtain ⟨rfl, -⟩ := outcomeAt_eq_jumpOutOfBounds_iff.mp hpc
  have hreached := after_append hp.reached hq.reached
  have hin : ∃ i, (p ++ q).at? (d.relocate p.size).pc = some i := by
    rw [exists_at?_iff, size_append]
    simp only [Configuration.relocate]
    omega
  -- The address is none of `q`, which was therefore not there.
  have hnot : ¬q.Passed ⟨0, a⟩ n ((d.relocate p.size).pc - p.size) := by
    intro hpass
    have hpos := (hpass.lt_size hq.reached).1
    simp only [Configuration.relocate] at hpos
    omega
  have hpassed : (p ++ q).Passed ⟨0, a₀⟩ (m + n) (d.relocate p.size).pc
      ↔ p.Passed ⟨0, a₀⟩ m (d.pc + p.size) := by
    rw [passed_append_iff hp.reached hq.reached, or_iff_left hnot]
    rfl
  rw [mem_visited_iff hp, hlen, hqtrace, htrace, length_steps hq.reached,
    length_steps hstop.reached, ← hpassed]
  constructor
  · rintro rfl
    obtain rfl : d.relocate p.size = e := Option.some.inj (hreached.symm.trans hstop.reached)
    obtain ⟨i, hi⟩ := hin
    exact hstop.ended.resolve_left fun hnone => by cases hnone.symm.trans hi
  · intro hpass
    have hfresh := hp.fresh.append hq.fresh hp.reached hq.reached
    exact (hstop.unique ⟨hreached, hfresh, .inr hpass⟩).1

end

/-- Take a program `p` that halts from `a₀` with `a`, and the run of a
program `q` from `a`. From `a₀` the program `p ++ q` takes the steps of
`p` and then those of `q`, which are at addresses `p.size` further on.
If `q` halts or goes round forever, so does the longer program, with the
same accumulator and after the steps of both. If `q` jumps out past its
own end or to before the whole of `p`, the longer program jumps out to
the same place, which is `p.size` further on there. What is left is a
jump from `q` back into `p`: it is the end of the longer run exactly if
it leads to an address where `p` was. -/
theorem execution_append (p q : Program) (a₀ a workers : Int)
    (hhalt : (p.execute { initial := a₀, workers }).ending = .ok (.halted a)) :
    ∃ t u v, (p.trace { initial := a₀, workers }).ending = .ok t
      ∧ (q.trace { initial := a, workers }).ending = .ok u
      ∧ (q.execute { initial := a, workers }).ending = .ok u.outcome
      ∧ ((p ++ q).trace { initial := a₀, workers }).ending = .ok v
      ∧ ((p ++ q).execute { initial := a₀, workers }).ending = .ok v.outcome
      ∧ t.steps ++ u.steps.map (·.relocate t.steps.length p.size) <+: v.steps
      ∧ (∀ b, u.outcome = .halted b →
          v.outcome = .halted b ∧ v.steps.length = t.steps.length + u.steps.length)
      ∧ (∀ b, u.outcome = .infiniteLoop b →
          v.outcome = .infiniteLoop b ∧ v.steps.length = t.steps.length + u.steps.length)
      ∧ (∀ pc, u.outcome = .jumpOutOfBounds pc → q.size < pc ∨ pc < -p.size →
          v.outcome = .jumpOutOfBounds (pc + p.size)
          ∧ v.steps.length = t.steps.length + u.steps.length)
      ∧ ∀ pc, u.outcome = .jumpOutOfBounds pc → -p.size ≤ pc → pc < 0 →
          (v.steps.length = t.steps.length + u.steps.length ↔ pc + p.size ∈ t.visited) := by
  have houtcome : p.outcome a₀ = .halted a := by
    rw [execute_quiet] at hhalt
    exact Except.ok.inj hhalt
  -- Where `q` does not jump back, the trace is known as a whole.
  have htogether : ∀ o, q.outcome a = o →
      (∀ pc, o = .jumpOutOfBounds pc → q.size < pc ∨ pc < -p.size) →
      ((p ++ q).quietTrace a₀).outcome = o.relocate p.size
      ∧ ((p ++ q).quietTrace a₀).steps.length
        = (p.quietTrace a₀).steps.length + (q.quietTrace a).steps.length := by
    rintro o rfl hjump
    rw [quietTrace_append houtcome hjump]
    exact ⟨rfl, by simp⟩
  refine ⟨p.quietTrace a₀, q.quietTrace a, (p ++ q).quietTrace a₀, by rw [trace_quiet],
    by rw [trace_quiet], by rw [execute_quiet]; rfl, by rw [trace_quiet],
    by rw [execute_quiet]; rfl, steps_append_prefix houtcome, ?_, ?_, ?_, ?_⟩
  · intro b hb
    exact htogether _ hb fun pc hpc => by cases hpc
  · intro b hb
    exact htogether _ hb fun pc hpc => by cases hpc
  · intro pc hpc hbounds
    refine htogether _ hpc fun pc' hpc' => ?_
    cases hpc'
    exact hbounds
  · intro pc hpc h₀ h₁
    exact length_steps_append_iff houtcome hpc h₀ h₁

/-- A jump over an instruction and then a loop: from `4` the first
program halts with `7` after three steps, and from `7` the second one
goes round with `8` after two. -/
theorem execution_append_demonstration :
    ∃ p q : Program, (p.execute { initial := 4, workers := 0 }).ending = .ok (.halted 7)
      ∧ (q.execute { initial := 7, workers := 0 }).ending = .ok (.infiniteLoop 8)
      ∧ ∃ v, ((p ++ q).trace { initial := 4, workers := 0 }).ending = .ok v
        ∧ v.outcome = .infiniteLoop 8 ∧ v.steps.length = 5 := by
  have hp : ((ofList [⟨.nop, 0⟩, ⟨.jmp, 2⟩, ⟨.acc, 100⟩, ⟨.acc, 3⟩]).trace
        { initial := 4, workers := 0 }).ending
      = .ok ⟨[⟨0, 0, ⟨.nop, 0⟩, 4, 4, 1⟩, ⟨1, 1, ⟨.jmp, 2⟩, 4, 4, 3⟩, ⟨2, 3, ⟨.acc, 3⟩, 4, 7, 4⟩],
          .halted 7⟩ := by
    cbv
  have hq : ((ofList [⟨.acc, 1⟩, ⟨.jmp, -1⟩]).trace { initial := 7, workers := 0 }).ending
      = .ok ⟨[⟨0, 0, ⟨.acc, 1⟩, 7, 8, 1⟩, ⟨1, 1, ⟨.jmp, -1⟩, 8, 8, 0⟩], .infiniteLoop 8⟩ := by
    cbv
  have hhalt : ((ofList [⟨.nop, 0⟩, ⟨.jmp, 2⟩, ⟨.acc, 100⟩, ⟨.acc, 3⟩]).execute
      { initial := 4, workers := 0 }).ending = .ok (.halted 7) := by
    cbv
  obtain ⟨t, u, v, ht, hu, hexecute, hv, -, -, -, hloop, -⟩ :=
    execution_append _ (ofList [⟨.acc, 1⟩, ⟨.jmp, -1⟩]) 4 7 0 hhalt
  cases ht.symm.trans hp
  cases hu.symm.trans hq
  obtain ⟨houtcome, hlength⟩ := hloop 8 rfl
  exact ⟨_, _, hhalt, hexecute, v, hv, houtcome, hlength⟩

end Program

end AccumulatorMachine
