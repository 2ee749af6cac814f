import AccumulatorMachine.Program

/-!
# `AccumulatorMachine.Proofs.PlainMachine`: the machine without marks

The plain machine holds an address and an accumulator and nothing
else. It steps while the address is in the program and stops
elsewhere, so a program can keep it going forever. What the machine
with marks (`Machine.lean`) tells of a program is compared with what
the plain machine does.

`p.after n c` is the configuration `n` steps after `c`, or nothing if
the plain machine stops before. The theorems:

* `after_shift`: the accumulator at the start only shifts the
  accumulators. So an address decides alone where the machine goes
  from there.
* `exists_after_of_revisit`: a machine that comes back to an address
  goes on forever. Its lap starts again with another accumulator, and
  by `after_shift` that makes no difference.
* `after_congr`: only what the instructions on the way do matters.
-/

set_option autoImplicit false

namespace AccumulatorMachine

/-- What the plain machine holds: the address of the next instruction
and the accumulator. -/
structure Configuration where
  pc : Int
  accumulator : Int
deriving DecidableEq, Repr

/-- All instructions but `jmp` lead to the next address. -/
theorem Instruction.move_eq_one {i : Instruction} (h : i.opcode ≠ .jmp) : i.effect.move = 1 := by
  obtain ⟨opcode, argument⟩ := i
  cases opcode with
  | acc => rfl
  | jmp => exact absurd rfl h
  | nop => rfl

namespace Configuration

/-- What an instruction makes of a configuration. -/
def advance (c : Configuration) (i : Instruction) : Configuration :=
  match i.opcode with
  | .acc => ⟨c.pc + 1, c.accumulator + i.argument⟩
  | .jmp => ⟨c.pc + i.argument, c.accumulator⟩
  | .nop => ⟨c.pc + 1, c.accumulator⟩

/-- The plain machine does what the effect of the instruction says. -/
theorem advance_eq (c : Configuration) (i : Instruction) :
    c.advance i = ⟨c.pc + i.effect.move, c.accumulator + i.effect.gain⟩ := by
  obtain ⟨opcode, argument⟩ := i
  cases opcode <;> simp [advance, Instruction.effect]

/-- The configuration at the same address with more in the
accumulator. -/
def shift (c : Configuration) (a : Int) : Configuration :=
  ⟨c.pc, c.accumulator + a⟩

/-- Only the accumulator is shifted. -/
@[simp]
theorem pc_shift (c : Configuration) (a : Int) : (c.shift a).pc = c.pc := rfl

/-- A shift loses nothing. -/
theorem shift_injective {c d : Configuration} {a : Int} (h : c.shift a = d.shift a) : c = d := by
  obtain ⟨pc, b⟩ := c
  obtain ⟨pc', b'⟩ := d
  simp only [shift, Configuration.mk.injEq] at h ⊢
  exact ⟨h.1, by omega⟩

/-- No instruction looks at the accumulator. -/
theorem advance_shift (c : Configuration) (a : Int) (i : Instruction) :
    (c.shift a).advance i = (c.advance i).shift a := by
  simp only [advance_eq, shift, Configuration.mk.injEq, true_and]
  omega

/-- Two configurations at one address differ by a shift. -/
theorem eq_shift_of_pc_eq {c d : Configuration} (h : c.pc = d.pc) :
    d = c.shift (d.accumulator - c.accumulator) := by
  obtain ⟨pc, a⟩ := d
  simp only [shift, Configuration.mk.injEq]
  exact ⟨h.symm, by omega⟩

end Configuration

namespace Program

variable {p q : Program} {c d e : Configuration} {i : Instruction}

/-! ### Addresses -/

/-- The instruction at an address, if the address is in the program. -/
def at? (p : Program) (pc : Int) : Option Instruction :=
  if 0 ≤ pc then p.toList[pc.toNat]? else none

/-- At positions from the front the plain machine finds the instructions of
the list. -/
@[simp]
theorem at?_natCast (p : Program) (k : Nat) : p.at? k = p.toList[k]? := by
  simp [at?]

/-- The addresses in a program of `n` instructions are `0` up to
`n - 1`. -/
theorem exists_at?_iff {pc : Int} : (∃ i, p.at? pc = some i) ↔ 0 ≤ pc ∧ pc < p.size := by
  rw [← Option.isSome_iff_exists, ← length_toList]
  unfold at?
  split
  · simp; omega
  · simp; omega

/-- An address of the program counts from the front. -/
theorem getElem?_of_at? {pc : Int} (h : p.at? pc = some i) : p.toList[pc.toNat]? = some i := by
  unfold at? at h
  split at h
  · exact h
  · cases h

/-- It finds none before the first or behind the last, and does not count
from the end. -/
theorem at?_eq_none_iff {pc : Int} : p.at? pc = none ↔ pc < 0 ∨ p.size ≤ pc := by
  rw [← Option.not_isSome_iff_eq_none, Option.isSome_iff_exists, exists_at?_iff]
  omega

/-! ### Steps -/

/-- One step of the plain machine; outside of the program there is
none. -/
def step? (p : Program) (c : Configuration) : Option Configuration :=
  (p.at? c.pc).map c.advance

/-- The configuration after `n` steps, or nothing if the plain machine
stops before. -/
def after (p : Program) : Nat → Configuration → Option Configuration
  | 0, c => some c
  | n + 1, c => (p.step? c).bind (p.after n)

/-- After no steps the machine is where it was. -/
@[simp]
theorem after_zero (p : Program) (c : Configuration) : p.after 0 c = some c := rfl

/-- The first step comes first, so that induction on the number of steps
goes along the run. -/
theorem after_succ (p : Program) (n : Nat) (c : Configuration) :
    p.after (n + 1) c = (p.step? c).bind (p.after n) := rfl

/-- Where there is an instruction, the first step carries it out. -/
theorem after_succ_of_at? (h : p.at? c.pc = some i) (n : Nat) :
    p.after (n + 1) c = p.after n (c.advance i) := by
  simp [after, step?, h]

/-- Where there is none, no step is taken. -/
theorem after_succ_of_none (h : p.at? c.pc = none) (n : Nat) : p.after (n + 1) c = none := by
  simp [after, step?, h]

/-- A run of `m + n` steps is a run of `m` steps and then one of
`n`. -/
theorem after_add (p : Program) (m n : Nat) (c : Configuration) :
    p.after (m + n) c = (p.after m c).bind (p.after n) := by
  induction m generalizing c with
  | zero => simp
  | succ m ih =>
      rw [show m + 1 + n = m + n + 1 by omega]
      -- Both sides begin with the step from `c`, if there is one.
      cases h : p.at? c.pc with
      | none => simp [after_succ_of_none h]
      | some i => rw [after_succ_of_at? h, after_succ_of_at? h, ih]

/-- Steps from a configuration that was reached. -/
theorem after_add_of_eq_some {m : Nat} (h : p.after m c = some d) (n : Nat) :
    p.after (m + n) c = p.after n d := by
  rw [after_add, h, Option.bind_some]

/-- One step more from a configuration that was reached. -/
theorem after_succ_of_eq_some {m : Nat} (h : p.after m c = some d) (hd : p.at? d.pc = some i) :
    p.after (m + 1) c = some (d.advance i) := by
  rw [after_add_of_eq_some h, after_succ_of_at? hd, after_zero]

/-- A run passes through a configuration at every earlier time. -/
theorem exists_after_of_le {m n : Nat} (h : p.after n c = some d) (hmn : m ≤ n) :
    ∃ e, p.after m c = some e ∧ p.after (n - m) e = some d := by
  rw [← Nat.add_sub_cancel' hmn, after_add] at h
  exact Option.bind_eq_some_iff.mp h

/-- A machine that steps on is at an address of the program. -/
theorem exists_at?_of_lt {m n : Nat} (hm : p.after m c = some d) (hn : p.after n c = some e)
    (hmn : m < n) : ∃ i, p.at? d.pc = some i := by
  obtain ⟨r, rfl⟩ : ∃ r, n = m + (r + 1) := ⟨n - m - 1, by omega⟩
  rw [after_add_of_eq_some hm] at hn
  -- Outside of the program the machine would not have got past `d`.
  cases h : p.at? d.pc with
  | none => rw [after_succ_of_none h] at hn; cases hn
  | some i => exact ⟨i, rfl⟩

/-! ### The accumulator decides nothing -/

/-- With more in the accumulator at the start, there is as much more in
it at the end. -/
theorem after_shift (p : Program) (n : Nat) (c : Configuration) (a : Int) :
    p.after n (c.shift a) = (p.after n c).map (·.shift a) := by
  induction n generalizing c with
  | zero => rfl
  | succ n ih =>
      cases h : p.at? c.pc with
      | none =>
          rw [after_succ_of_none h, after_succ_of_none (by rwa [Configuration.pc_shift])]
          rfl
      | some i =>
          -- The shifted configuration is at the same address, so it is
          -- the same instruction that shifts along.
          rw [after_succ_of_at? h, after_succ_of_at? (by rwa [Configuration.pc_shift]),
            Configuration.advance_shift, ih]

/-- A shift of the accumulator at the start is the same shift after any
number of steps, since no step reads it. -/
theorem after_shift_eq_some_iff {n : Nat} {a : Int} :
    p.after n (c.shift a) = some (d.shift a) ↔ p.after n c = some d := by
  rw [after_shift, Option.map_eq_some_iff]
  constructor
  · rintro ⟨e, he, hshift⟩
    rw [he, Configuration.shift_injective hshift]
  · intro h
    exact ⟨d, h, rfl⟩

/-- What a shifted run comes to is the shift of what the run comes
to. -/
theorem exists_eq_shift_of_after_shift {n : Nat} {a : Int}
    (h : p.after n (c.shift a) = some e) : ∃ d, p.after n c = some d ∧ e = d.shift a := by
  rw [after_shift, Option.map_eq_some_iff] at h
  obtain ⟨d, hd, rfl⟩ := h
  exact ⟨d, hd, rfl⟩

/-- From one address the machine goes on for as long with any
accumulator. -/
theorem exists_after_of_pc_eq {n : Nat} (h : c.pc = d.pc) (hc : ∃ e, p.after n c = some e) :
    ∃ e, p.after n d = some e := by
  obtain ⟨e, he⟩ := hc
  rw [Configuration.eq_shift_of_pc_eq h, after_shift, he]
  exact ⟨_, rfl⟩

/-- A machine that comes back to an address goes on forever. -/
theorem exists_after_of_revisit {j k : Nat} (hj : p.after j c = some d)
    (hk : p.after k c = some e) (hjk : j < k) (hpc : d.pc = e.pc) (n : Nat) :
    ∃ f, p.after n c = some f := by
  -- A lap takes `k - j` steps and leads from `d` to `e`.
  have hlap : p.after (k - j) d = some e := by
    obtain ⟨d', hd', h⟩ := exists_after_of_le hk (Nat.le_of_lt hjk)
    rw [hj, Option.some.injEq] at hd'
    rwa [hd']
  -- Strong induction, since one lap takes off `k - j` steps at once.
  have hforever : ∀ m, ∃ f, p.after m d = some f := by
    intro m
    induction m using Nat.strongRecOn with
    | ind m ih =>
        by_cases hm : m ≤ k - j
        · obtain ⟨f, hf, -⟩ := exists_after_of_le hlap hm
          exact ⟨f, hf⟩
        · -- After the first lap the machine goes on as it did from `d`.
          have hrest := exists_after_of_pc_eq hpc (ih (m - (k - j)) (by omega))
          rwa [← after_add_of_eq_some hlap, Nat.add_sub_cancel' (by omega)] at hrest
  -- From `c` it is `j` steps more than from `d`, which is enough.
  obtain ⟨f, hf⟩ := hforever n
  rw [← after_add_of_eq_some hj] at hf
  obtain ⟨g, hg, -⟩ := exists_after_of_le hf (Nat.le_add_left n j)
  exact ⟨g, hg⟩

/-! ### Two programs -/

/-- Whether two programs do the same at an address. -/
def AgreeAt (p q : Program) (pc : Int) : Prop :=
  (p.at? pc).map Instruction.effect = (q.at? pc).map Instruction.effect

/-- The same instruction has the same effect. -/
theorem agreeAt_of_eq {pc : Int} (h : q.at? pc = p.at? pc) : p.AgreeAt q pc := by
  rw [AgreeAt, h]

/-- Programs agree with each other. -/
theorem AgreeAt.symm {pc : Int} (h : p.AgreeAt q pc) : q.AgreeAt p pc := Eq.symm h

/-- Programs that do the same at an address step alike from there. -/
theorem AgreeAt.step?_eq (h : p.AgreeAt q c.pc) : q.step? c = p.step? c := by
  -- A step needs the effect alone, not the instruction.
  have hstep : ∀ r : Program, r.step? c = ((r.at? c.pc).map Instruction.effect).map
      fun e => ⟨c.pc + e.move, c.accumulator + e.gain⟩ := by
    intro r
    rw [step?, Option.map_map]
    exact congrFun (congrArg Option.map (funext c.advance_eq)) _
  rw [hstep, hstep, h]

/-- Programs that do the same at the addresses on the way lead to the
same configuration. -/
theorem after_congr {n : Nat}
    (h : ∀ m < n, ∀ e, p.after m c = some e → p.AgreeAt q e.pc) :
    q.after n c = p.after n c := by
  induction n generalizing c with
  | zero => rfl
  | succ n ih =>
      have hstep := (h 0 (Nat.zero_lt_succ n) c rfl).step?_eq
      rw [after_succ, after_succ, hstep]
      cases hd : p.step? c with
      | none => rfl
      | some d =>
          -- What is on the way from `d` is on the way from `c` a step
          -- later.
          refine ih fun m hm e he => h (m + 1) (Nat.succ_lt_succ hm) e ?_
          rw [after_succ, hd]
          exact he

/-! ### Halting -/

/-- Whether the plain machine comes to the address just past the
program. -/
def Halts (p : Program) (c : Configuration) : Prop :=
  ∃ n a, p.after n c = some ⟨p.size, a⟩

/-- Whether the plain machine comes to the end is decided by the
address. -/
theorem Halts.of_pc_eq (h : p.Halts c) (hpc : c.pc = d.pc) : p.Halts d := by
  obtain ⟨n, a, hn⟩ := h
  rw [Configuration.eq_shift_of_pc_eq hpc]
  exact ⟨n, _, by rw [after_shift, hn]; rfl⟩

/-- What is on the way to a configuration from which the machine comes
to the end does so too. -/
theorem Halts.of_after {m : Nat} (h : p.Halts d) (hm : p.after m c = some d) : p.Halts c := by
  obtain ⟨n, a, hn⟩ := h
  exact ⟨m + n, a, by rw [after_add_of_eq_some hm, hn]⟩

/-- At the end the plain machine has stopped. -/
theorem at?_size (p : Program) : p.at? p.size = none :=
  at?_eq_none_iff.mpr (.inr (Int.le_refl _))

/-- From an address of the program, the end lies behind whatever the
machine comes to. -/
theorem exists_after_of_after_eq_end {m n : Nat} {a : Int} (hm : p.after m c = some d)
    (hn : p.after n c = some ⟨p.size, a⟩) (hd : p.at? d.pc = some i) :
    ∃ k, n = m + (k + 1) ∧ p.after k (d.advance i) = some ⟨p.size, a⟩ := by
  -- From the end there is no way to `d`, and `d` is not the end.
  have hmn : m < n := by
    rcases Nat.lt_trichotomy n m with hlt | rfl | hgt
    · obtain ⟨j, hj⟩ := exists_at?_of_lt hn hm hlt
      cases p.at?_size.symm.trans hj
    · rw [hm, Option.some.injEq] at hn
      rw [hn] at hd
      cases p.at?_size.symm.trans hd
    · exact hgt
  obtain ⟨k, rfl⟩ : ∃ k, n = m + (k + 1) := ⟨n - m - 1, by omega⟩
  rw [after_add_of_eq_some hm, after_succ_of_at? hd] at hn
  exact ⟨k, rfl, hn⟩

end Program

end AccumulatorMachine
