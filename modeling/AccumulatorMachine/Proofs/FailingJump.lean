import AccumulatorMachine.Proofs.Search

/-!
# `AccumulatorMachine.Proofs.FailingJump`: every failure comes from a jump

All instructions but `jmp` lead to the next address. So a run can leave
the program other than at its end only by a `jmp`, and it comes to an
address for the second time only if it went back in between.

* `exists_last_jump`: a run that jumps out took a last step, and that
  step is the `jmp` that leads out.
* `exists_backward_jump`: a run that goes round forever took a `jmp`
  whose argument is not positive. It need not be the last step, since an
  `acc` or a `nop` can lead to an address that was visited. If there is
  none, the addresses of the run ascend (`pc_lt_of_forward`), and so
  none of them is visited twice.

Therefore a run without such jumps halts (`exists_halted_of_jumps`). A
run that fails has a `jmp` among its steps, which is an instruction to
swap (`exists_visited_candidate`). `failure_comes_from_jump` puts this
together.
-/

set_option autoImplicit false

namespace AccumulatorMachine

/-- Whether an instruction stays at its address or leads back. -/
def Instruction.LeadsBack (i : Instruction) : Prop := i.opcode = .jmp ∧ i.argument ≤ 0

/-- Only a jump moves by its argument. -/
theorem Instruction.move_of_jmp {i : Instruction} (h : i.opcode = .jmp) :
    i.effect.move = i.argument := by
  obtain ⟨opcode, argument⟩ := i
  cases h
  rfl

/-- All other instructions lead on. -/
theorem Instruction.move_pos {i : Instruction} (h : ¬i.LeadsBack) : 0 < i.effect.move := by
  by_cases hjmp : i.opcode = .jmp
  · have harg : ¬i.argument ≤ 0 := fun hle => h ⟨hjmp, hle⟩
    rw [move_of_jmp hjmp]
    omega
  · rw [move_eq_one hjmp]
    omega

namespace Program

variable {p : Program} {c d e : Configuration} {i : Instruction} {a : Int} {k m n : Nat}

/-! ### Addresses on the way -/

/-- While no instruction leads back, the addresses ascend. -/
theorem pc_lt_of_forward (h : p.after n c = some d)
    (hforward : ∀ k < n, ∀ e i, p.after k c = some e → p.at? e.pc = some i → ¬i.LeadsBack)
    (hm : p.after m c = some e) (hmn : m < n) : e.pc < d.pc := by
  induction n generalizing d with
  | zero => exact absurd hmn (Nat.not_lt_zero m)
  | succ n ih =>
      obtain ⟨f, hf, -⟩ := exists_after_of_le h (Nat.le_succ n)
      obtain ⟨i, hi⟩ := exists_at?_of_lt hf h (Nat.lt_succ_self n)
      rw [after_succ_of_eq_some hf hi, Option.some.injEq] at h
      have hstep : f.pc < d.pc := by
        have hmove := Instruction.move_pos (hforward n (Nat.lt_succ_self n) f i hf hi)
        rw [← h, Configuration.advance_eq]
        show f.pc < f.pc + i.effect.move
        omega
      rcases Nat.lt_succ_iff_lt_or_eq.mp hmn with hlt | rfl
      · have hrest := ih hf (fun k hk => hforward k (Nat.lt_succ_of_lt hk)) hlt
        omega
      · rw [hf, Option.some.injEq] at hm
        rwa [← hm]

/-- A machine that was at an address before went back since. -/
theorem Passed.exists_leadsBack (h : p.Passed c n d.pc) (hd : p.after n c = some d) :
    ∃ k < n, ∃ e i, p.after k c = some e ∧ p.at? e.pc = some i ∧ i.LeadsBack := by
  refine Classical.byContradiction fun hnone => ?_
  obtain ⟨m, hm, e, he, hpc⟩ := h
  have hlt : e.pc < d.pc := pc_lt_of_forward hd
    (fun k hk e i he hi hback => hnone ⟨k, hk, e, i, he, hi, hback⟩) he hm
  omega

/-! ### Steps of a run -/

/-- The step of a run is made by the instruction at its address. -/
theorem of_mem_steps {s : Step} (hs : s ∈ (p.quietTrace a).steps) :
    p.at? s.pc = some s.instruction ∧ s.next = s.pc + s.instruction.effect.move := by
  obtain ⟨n, d, hstop, htrace⟩ := p.exists_stopsAt_quietTrace a
  rw [htrace] at hs
  obtain ⟨m, -, e, i, -, hi, rfl⟩ := (mem_steps_iff hstop.reached).mp hs
  refine ⟨hi, ?_⟩
  show (e.advance i).pc = e.pc + i.effect.move
  rw [Configuration.advance_eq]

/-- A run that jumps out does so by its last step. -/
theorem exists_last_jump {pc : Int} (h : p.outcome a = .jumpOutOfBounds pc) :
    ∃ s, (p.quietTrace a).steps.getLast? = some s ∧ s.instruction.opcode = .jmp
      ∧ pc = s.pc + s.instruction.argument ∧ (pc < 0 ∨ p.size < pc) := by
  obtain ⟨n, d, hstop, htrace⟩ := p.exists_stopsAt_quietTrace a
  rw [outcome_eq hstop] at h
  obtain ⟨rfl, hout⟩ := outcomeAt_eq_jumpOutOfBounds_iff.mp h
  have hlength := length_steps hstop.reached 0
  cases n with
  | zero =>
      -- The first address is not outside.
      have hstart : ⟨0, a⟩ = d := Option.some.inj hstop.reached
      subst hstart
      simp only at hout
      omega
  | succ n =>
      obtain ⟨e, he, -⟩ := exists_after_of_le hstop.reached (Nat.le_succ n)
      obtain ⟨i, hi⟩ := exists_at?_of_lt he hstop.reached (Nat.lt_succ_self n)
      obtain ⟨h₀, h₁⟩ := exists_at?_iff.mp ⟨i, hi⟩
      have hd : e.advance i = d :=
        Option.some.inj ((after_succ_of_eq_some he hi).symm.trans hstop.reached)
      have hpc : d.pc = e.pc + i.effect.move := by
        rw [← hd, Configuration.advance_eq]
      -- One address further on is the end of the program at most.
      have hjmp : i.opcode = .jmp := by
        refine Classical.byContradiction fun hother => ?_
        rw [Instruction.move_eq_one hother] at hpc
        omega
      rw [Instruction.move_of_jmp hjmp] at hpc
      refine ⟨Step.ofConfiguration (0 + n : Nat) e i, ?_, hjmp, hpc, hout⟩
      rw [htrace, List.getLast?_eq_getElem?, hlength, Nat.add_sub_cancel]
      exact getElem?_steps he hi (Nat.lt_succ_self n) 0

/-- A run that goes round forever took a step that did not lead on. -/
theorem exists_backward_jump {b : Int} (h : p.outcome a = .infiniteLoop b) :
    ∃ s ∈ (p.quietTrace a).steps, s.instruction.opcode = .jmp ∧ s.instruction.argument ≤ 0 := by
  obtain ⟨n, d, hstop, htrace⟩ := p.exists_stopsAt_quietTrace a
  rw [outcome_eq hstop] at h
  obtain ⟨i, hi⟩ := exists_outcomeAt_eq_infiniteLoop_iff.mp ⟨b, h⟩
  have hpass := hstop.ended.resolve_left fun hout => by cases hout.symm.trans hi
  obtain ⟨k, hk, e, j, he, hj, hback⟩ := hpass.exists_leadsBack hstop.reached
  refine ⟨Step.ofConfiguration (0 + k : Nat) e j, ?_, hback⟩
  rw [htrace]
  exact (mem_steps_iff hstop.reached).mpr ⟨k, hk, e, j, he, hj, rfl⟩

/-! ### Programs that halt, and programs that fail -/

/-- A run halts if all of its jumps lead on and no further than to the
end. -/
theorem exists_halted_of_jumps
    (h : ∀ s ∈ (p.quietTrace a).steps, s.instruction.opcode = .jmp →
      0 < s.instruction.argument ∧ s.next ≤ p.size) : ∃ b, p.outcome a = .halted b := by
  cases houtcome : p.outcome a with
  | halted b => exact ⟨b, rfl⟩
  | infiniteLoop b =>
      obtain ⟨s, hs, hjmp, hle⟩ := exists_backward_jump houtcome
      have hpos := (h s hs hjmp).1
      omega
  | jumpOutOfBounds pc =>
      obtain ⟨s, hlast, hjmp, hpc, hout⟩ := exists_last_jump houtcome
      have hs : s ∈ (p.quietTrace a).steps := List.mem_of_getLast? hlast
      obtain ⟨hat, hnext⟩ := of_mem_steps hs
      obtain ⟨hpos, hle⟩ := h s hs hjmp
      obtain ⟨h₀, -⟩ := exists_at?_iff.mp ⟨_, hat⟩
      rw [Instruction.move_of_jmp hjmp] at hnext
      omega

/-- The same, for all jumps of the program. -/
theorem exists_halted_of_forward
    (h : ∀ (i : Nat) x, p.toList[i]? = some x → x.opcode = .jmp →
      0 < x.argument ∧ i + x.argument ≤ p.size) (a : Int) : ∃ b, p.outcome a = .halted b := by
  refine exists_halted_of_jumps fun s hs hjmp => ?_
  obtain ⟨hat, hnext⟩ := of_mem_steps hs
  obtain ⟨h₀, -⟩ := exists_at?_iff.mp ⟨_, hat⟩
  obtain ⟨hpos, hle⟩ := h _ _ (getElem?_of_at? hat) hjmp
  rw [Instruction.move_of_jmp hjmp] at hnext
  exact ⟨hpos, by omega⟩

/-- A step by a `jmp` visits an instruction to swap. -/
theorem exists_candidate_of_mem_steps {s : Step} (hs : s ∈ (p.quietTrace a).steps)
    (hjmp : s.instruction.opcode = .jmp) :
    ∃ i ∈ p.candidates, (i : Int) ∈ (p.quietTrace a).visited := by
  obtain ⟨hat, -⟩ := of_mem_steps hs
  obtain ⟨h₀, -⟩ := exists_at?_iff.mp ⟨_, hat⟩
  have hswap : s.instruction.isToggleable = true := by
    rw [Instruction.isToggleable, hjmp]
    rfl
  have hmem : (s.instruction, s.pc.toNat) ∈ p.swappable :=
    mem_swappable_iff.mpr ⟨getElem?_of_at? hat, hswap⟩
  refine ⟨s.pc.toNat, List.mem_map.mpr ⟨_, hmem, rfl⟩, ?_⟩
  rw [Int.toNat_of_nonneg h₀]
  exact List.mem_map.mpr ⟨s, hs, rfl⟩

/-- A run that fails visits an instruction to swap. -/
theorem exists_visited_candidate (h : (p.outcome a).succeeded = false) :
    ∃ i ∈ p.candidates, (i : Int) ∈ (p.quietTrace a).visited := by
  cases houtcome : p.outcome a with
  | halted b =>
      rw [houtcome] at h
      cases h
  | infiniteLoop b =>
      obtain ⟨s, hs, hjmp, -⟩ := exists_backward_jump houtcome
      exact exists_candidate_of_mem_steps hs hjmp
  | jumpOutOfBounds pc =>
      obtain ⟨s, hlast, hjmp, -⟩ := exists_last_jump houtcome
      exact exists_candidate_of_mem_steps (List.mem_of_getLast? hlast) hjmp

/-- Every failure comes from a `jmp` that was carried out. If a run jumps
out, its last step is the `jmp` that leads there. If a run goes round
forever, one of its steps is a `jmp` whose argument is not positive. So
a run halts if its jumps have positive arguments and lead no further
than to the end, in particular if this holds of all jumps in the
program, or if there is none. A run that fails visits an instruction to
swap. -/
theorem failure_comes_from_jump (p : Program) (a₀ workers : Int) :
    ∃ t, (p.trace { initial := a₀, workers }).ending = .ok t
      ∧ (p.execute { initial := a₀, workers }).ending = .ok t.outcome
      ∧ (∀ pc, t.outcome = .jumpOutOfBounds pc →
          ∃ s, t.steps.getLast? = some s ∧ s.instruction.opcode = .jmp
            ∧ pc = s.pc + s.instruction.argument ∧ (pc < 0 ∨ p.size < pc))
      ∧ (∀ a, t.outcome = .infiniteLoop a →
          ∃ s ∈ t.steps, s.instruction.opcode = .jmp ∧ s.instruction.argument ≤ 0)
      ∧ ((∀ s ∈ t.steps, s.instruction.opcode = .jmp →
            0 < s.instruction.argument ∧ s.next ≤ p.size) → ∃ a, t.outcome = .halted a)
      ∧ ((∀ (i : Nat) x, p.toList[i]? = some x → x.opcode = .jmp →
            0 < x.argument ∧ i + x.argument ≤ p.size) → ∃ a, t.outcome = .halted a)
      ∧ ((∀ x ∈ p.toList, x.opcode ≠ .jmp) → ∃ a, t.outcome = .halted a)
      ∧ (t.outcome.succeeded = false → ∃ i ∈ p.candidates, (i : Int) ∈ t.visited) := by
  refine ⟨p.quietTrace a₀, by rw [trace_quiet], by rw [execute_quiet]; rfl,
    fun pc h => exists_last_jump h, fun a h => exists_backward_jump h, exists_halted_of_jumps,
    fun h => exists_halted_of_forward h a₀, fun h => ?_, exists_visited_candidate⟩
  exact exists_halted_of_forward
    (fun i x hx hjmp => absurd hjmp (h x (List.mem_of_getElem? hx))) a₀

/-- The first program goes round by the `jmp` at `3`, but the last step
before the loop is found is the `acc` at `2`. The second program jumps out
to `-3` by its last step. -/
theorem failure_comes_from_jump_demonstration :
    (∃ t, ((ofList [⟨.acc, 1⟩, ⟨.jmp, 2⟩, ⟨.acc, 5⟩, ⟨.jmp, -1⟩]).trace { initial := 0 }).ending
        = .ok t ∧ t.outcome = .infiniteLoop 6
      ∧ (∃ s, t.steps.getLast? = some s ∧ s.instruction.opcode = .acc)
      ∧ ∃ s ∈ t.steps, s.instruction.opcode = .jmp ∧ s.instruction.argument ≤ 0)
    ∧ ∃ t, ((ofList [⟨.acc, 1⟩, ⟨.jmp, -4⟩]).trace { initial := 0 }).ending = .ok t
      ∧ t.outcome = .jumpOutOfBounds (-3)
      ∧ ∃ s, t.steps.getLast? = some s ∧ s.instruction.opcode = .jmp
        ∧ -3 = s.pc + s.instruction.argument := by
  constructor
  · have htrace : ((ofList [⟨.acc, 1⟩, ⟨.jmp, 2⟩, ⟨.acc, 5⟩, ⟨.jmp, -1⟩]).trace
          { initial := 0 }).ending
        = .ok ⟨[⟨0, 0, ⟨.acc, 1⟩, 0, 1, 1⟩, ⟨1, 1, ⟨.jmp, 2⟩, 1, 1, 3⟩,
            ⟨2, 3, ⟨.jmp, -1⟩, 1, 1, 2⟩, ⟨3, 2, ⟨.acc, 5⟩, 1, 6, 3⟩], .infiniteLoop 6⟩ := by
      cbv
    obtain ⟨t, ht, -, -, hloop, -⟩ := failure_comes_from_jump
      (ofList [⟨.acc, 1⟩, ⟨.jmp, 2⟩, ⟨.acc, 5⟩, ⟨.jmp, -1⟩]) 0 0
    cases ht.symm.trans htrace
    exact ⟨_, ht, rfl, ⟨_, rfl, rfl⟩, hloop 6 rfl⟩
  · have htrace : ((ofList [⟨.acc, 1⟩, ⟨.jmp, -4⟩]).trace { initial := 0 }).ending
        = .ok ⟨[⟨0, 0, ⟨.acc, 1⟩, 0, 1, 1⟩, ⟨1, 1, ⟨.jmp, -4⟩, 1, 1, -3⟩],
            .jumpOutOfBounds (-3)⟩ := by
      cbv
    obtain ⟨t, ht, -, hjump, -⟩ := failure_comes_from_jump
      (ofList [⟨.acc, 1⟩, ⟨.jmp, -4⟩]) 0 0
    cases ht.symm.trans htrace
    obtain ⟨s, hlast, hjmp, hpc, -⟩ := hjump (-3) rfl
    exact ⟨_, ht, rfl, s, hlast, hjmp, hpc⟩

end Program

end AccumulatorMachine
