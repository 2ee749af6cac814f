import AccumulatorMachine.Proofs.SurveyPrefix
import AccumulatorMachine.Proofs.SwapLaws

/-!
# `AccumulatorMachine.Proofs.Tally`: how often each opcode occurs

`opcodeCounts` goes through a program once and counts each opcode where it
was counted before, or behind the others if it is new. `Tallies counts os`
says what has been counted when the opcodes `os` were passed, and one more
opcode leaves that true of the opcodes with it (`Tallies.snoc`).

The instructions to swap are those that are counted as `jmp` or `nop`, so
the counts tell how many attempts there are. A swap moves one instruction
from one of the two counts to the other (`count_opcodes_swapAt`).
-/

set_option autoImplicit false

namespace AccumulatorMachine

namespace Program

/-- The opcodes of the instructions, in order. -/
def opcodes (p : Program) : List Opcode := p.toList.map (·.opcode)

/-- The count of an opcode, which is `0` if there is none. -/
def countOf (counts : List (Opcode × Nat)) (o : Opcode) : Nat := (counts.lookup o).getD 0

variable {p : Program} {x : Instruction} {i : Nat} {counts : List (Opcode × Nat)}
  {os : List Opcode} {o : Opcode} {n : Nat}

/-! ### One more opcode -/

/-- Whether counts are those of a sequence of opcodes: each opcode that
occurs is counted as often as it does, and the counts come in the order in
which the opcodes occur first. -/
structure Tallies (counts : List (Opcode × Nat)) (os : List Opcode) : Prop where
  mem : ∀ o, o ∈ counts.map (·.1) ↔ o ∈ os
  ascending : (counts.map (·.1)).Pairwise fun a b => os.idxOf a < os.idxOf b
  count : ∀ o, countOf counts o = os.count o
  total : (counts.map (·.2)).sum = os.length

/-- An opcode that was counted before stays where it is. -/
theorem keys_tally (counts : List (Opcode × Nat)) (o : Opcode) :
    (tally counts o).map (·.1)
      = if o ∈ counts.map (·.1) then counts.map (·.1) else counts.map (·.1) ++ [o] := by
  induction counts with
  | nil => rfl
  | cons entry counts ih =>
      obtain ⟨k, n⟩ := entry
      by_cases hk : k = o
      · simp [tally, hk]
      · rw [tally, if_neg hk, List.map_cons, List.map_cons, ih]
        by_cases ho : o ∈ counts.map (·.1)
        · rw [if_pos ho, if_pos (List.mem_cons_of_mem _ ho)]
        · rw [if_neg ho, if_neg (by simpa [Ne.symm hk] using ho), List.cons_append]

/-- The count of an opcode is in the first entry that is its own. -/
theorem countOf_cons (k : Opcode) (n : Nat) (counts : List (Opcode × Nat)) (o : Opcode) :
    countOf ((k, n) :: counts) o = if k = o then n else countOf counts o := by
  by_cases hk : k = o
  · simp [countOf, hk]
  · have hne : (o == k) = false := by simpa using Ne.symm hk
    simp [countOf, hk, List.lookup_cons, hne]

/-- Counting an opcode adds one to its count and leaves the others. -/
theorem countOf_tally (counts : List (Opcode × Nat)) (o k : Opcode) :
    countOf (tally counts o) k = countOf counts k + if o = k then 1 else 0 := by
  induction counts with
  | nil => rw [tally, countOf_cons, countOf, List.lookup_nil, Option.getD_none, Nat.zero_add]
  | cons entry counts ih =>
      obtain ⟨j, n⟩ := entry
      by_cases hj : j = o
      · rw [tally, if_pos hj, countOf_cons, countOf_cons, hj]
        split
        · rfl
        · rfl
      · rw [tally, if_neg hj, countOf_cons, countOf_cons, ih]
        split
        · rename_i hjk
          rw [if_neg fun hok => hj (hjk.trans hok.symm), Nat.add_zero]
        · rfl

/-- It adds one to the sum, whether it had a count before or not. -/
theorem sum_tally (counts : List (Opcode × Nat)) (o : Opcode) :
    ((tally counts o).map (·.2)).sum = (counts.map (·.2)).sum + 1 := by
  induction counts with
  | nil => rfl
  | cons entry counts ih =>
      obtain ⟨k, n⟩ := entry
      by_cases hk : k = o
      · simp only [tally, hk, if_true, List.map_cons, List.sum_cons]
        omega
      · simp only [tally, hk, if_false, List.map_cons, List.sum_cons, ih]
        omega

/-- Nothing is counted of no opcodes. -/
theorem tallies_nil : Tallies [] [] where
  mem := fun _ => .rfl
  ascending := .nil
  count := fun _ => rfl
  total := rfl

/-- One more opcode is counted. -/
theorem Tallies.snoc (h : Tallies counts os) (o : Opcode) :
    Tallies (tally counts o) (os ++ [o]) where
  mem := by
    intro k
    rw [keys_tally, List.mem_append, List.mem_singleton, ← h.mem k]
    split
    · rename_i ho
      exact ⟨.inl, fun hk => hk.elim id fun hk => hk ▸ ho⟩
    · rw [List.mem_append, List.mem_singleton]
  ascending := by
    -- What occurred before occurs first where it did.
    have hbefore : (counts.map (·.1)).Pairwise
        fun a b => (os ++ [o]).idxOf a < (os ++ [o]).idxOf b := by
      refine h.ascending.imp_of_mem fun {a b} ha hb hab => ?_
      rwa [List.idxOf_append_of_mem ((h.mem a).mp ha), List.idxOf_append_of_mem ((h.mem b).mp hb)]
    rw [keys_tally]
    split
    · exact hbefore
    · rename_i ho
      refine List.pairwise_append.mpr ⟨hbefore, List.pairwise_singleton _ _, fun a ha b hb => ?_⟩
      rw [List.mem_singleton] at hb
      subst hb
      rw [List.idxOf_append_of_mem ((h.mem a).mp ha),
        List.idxOf_append_of_notMem (mt (h.mem b).mpr ho)]
      have hlt := List.idxOf_lt_length_iff.mpr ((h.mem a).mp ha)
      omega
  count := by
    intro k
    rw [countOf_tally, h.count k, List.count_append, List.count_singleton]
    simp
  total := by
    rw [sum_tally, h.total, List.length_append]
    rfl

/-- Opcodes are counted one after the other, so that induction goes along
those that are left. -/
theorem Tallies.foldl (h : Tallies counts os) (rest : List Opcode) :
    Tallies (rest.foldl tally counts) (os ++ rest) := by
  induction rest generalizing counts os with
  | nil => rwa [List.append_nil]
  | cons o rest ih =>
      have hrest := ih (h.snoc o)
      rwa [List.append_assoc, List.singleton_append] at hrest

/-- The counts of a program are those of its opcodes in order. -/
theorem tallies_opcodeCounts (p : Program) : Tallies p.opcodeCounts p.opcodes := by
  rw [opcodeCounts, ← List.foldl_map]
  exact tallies_nil.foldl p.opcodes

namespace Tallies

/-- No opcode has two counts, since each one occurs first at one place. -/
theorem nodup (h : Tallies counts os) : (counts.map (·.1)).Nodup :=
  h.ascending.imp fun {a b} hab heq => by
    rw [heq] at hab
    exact Nat.lt_irrefl _ hab

/-- Since no opcode has two counts, each one is the count of its opcode. -/
theorem eq_count_of_mem (h : Tallies counts os) (hmem : (o, n) ∈ counts) : n = os.count o := by
  obtain ⟨before, after, rfl⟩ := List.append_of_mem hmem
  have hnodup := h.nodup
  rw [List.map_append, List.map_cons, List.nodup_append] at hnodup
  have hlookup : (before ++ (o, n) :: after).lookup o = some n := by
    refine List.lookup_eq_some_iff.mpr ⟨before, after, rfl, fun entry hentry => ?_⟩
    have hne := hnodup.2.2 entry.1 (List.mem_map_of_mem hentry) o List.mem_cons_self
    simpa using hne.symm
  rw [← h.count o, countOf, hlookup]
  rfl

/-- What has a count occurs. -/
theorem pos_of_mem (h : Tallies counts os) (hmem : (o, n) ∈ counts) : 0 < n := by
  rw [h.eq_count_of_mem hmem, List.count_pos_iff, ← h.mem o]
  exact List.mem_map_of_mem hmem

end Tallies

/-! ### Counts and swaps -/

/-- The count of an opcode is the number of instructions that have it. -/
theorem countOf_opcodeCounts (p : Program) (o : Opcode) :
    countOf p.opcodeCounts o = p.opcodes.count o :=
  p.tallies_opcodeCounts.count o

/-- What can be swapped is a `jmp` or a `nop`. -/
theorem length_candidates (p : Program) :
    p.candidates.length = p.opcodes.count .jmp + p.opcodes.count .nop := by
  rw [candidates_eq, List.length_map, length_swappable, opcodes]
  induction p.toList with
  | nil => rfl
  | cons x l ih =>
      rw [List.countP_cons, List.map_cons, List.count_cons, List.count_cons, ih]
      obtain ⟨opcode, n⟩ := x
      cases opcode with
      | acc => rfl
      | jmp => simp [Instruction.isToggleable, Opcode.isToggleable]; omega
      | nop => simp [Instruction.isToggleable, Opcode.isToggleable]; omega

/-- A survey makes one attempt at each candidate. -/
theorem length_attempts (p : Program) : p.attempts.length = p.candidates.length := by
  rw [attempts, candidates_eq, List.length_map, List.length_map]

/-- A swap takes an instruction from the count of its opcode to that of
the other one. -/
theorem count_opcodes_swapAt (h : p.toList[i]? = some x) (o : Opcode) :
    (p.swapAt i).opcodes.count o + (if x.opcode = o then 1 else 0)
      = p.opcodes.count o + if x.toggled.opcode = o then 1 else 0 := by
  obtain ⟨hi, hx⟩ := List.getElem?_eq_some_iff.mp h
  have hswap : (p.swapAt i).toList = p.toList.take i ++ x.toggled :: p.toList.drop (i + 1) := by
    rw [toList_swapAt, List.modify_eq_take_cons_drop hi, hx]
  have hsame : p.toList = p.toList.take i ++ x :: p.toList.drop (i + 1) := by
    rw [← hx, List.cons_getElem_drop_succ, List.take_append_drop]
  rw [opcodes, opcodes, hswap]
  conv_rhs => rw [hsame]
  simp only [List.map_append, List.map_cons, List.count_append, List.count_cons, beq_iff_eq]
  omega

/-! ### The counts -/

/-- There is one count for each opcode that occurs, in the order in which
they occur first. Each count is how often its opcode occurs, and together
they are all instructions. Those of `jmp` and `nop` tell how many
candidates there are, which is how many attempts there are in a survey and
in every search with workers. A swap at a candidate takes one off the count
of the instruction there and adds one to that of the other opcode, and the
count of `acc` stays the same. -/
theorem opcode_counts_exact (p : Program) :
    ((∀ o, o ∈ p.opcodeCounts.map (·.1) ↔ o ∈ p.opcodes)
      ∧ (p.opcodeCounts.map (·.1)).Nodup
      ∧ (p.opcodeCounts.map (·.1)).Pairwise (fun a b => p.opcodes.idxOf a < p.opcodes.idxOf b)
      ∧ (∀ o n, (o, n) ∈ p.opcodeCounts → n = p.opcodes.count o ∧ 1 ≤ n)
      ∧ (p.opcodeCounts.map (·.2)).sum = p.size)
    ∧ (countOf p.opcodeCounts .jmp + countOf p.opcodeCounts .nop = p.candidates.length
      ∧ ∀ settings,
        (settings.verbose = false → (∃ ys, (p.survey settings).ending = .ok ys)
          ∧ ∃ r, (p.repair settings).ending = .ok r)
        ∧ (∀ ys, (p.survey settings).ending = .ok ys → ys.length = p.candidates.length)
        ∧ (∀ r, 0 < settings.workers → (p.repair settings).ending = .ok r →
            r.attempts = p.candidates.length))
    ∧ ∀ i ∈ p.candidates, ∃ x q, p.get i = .ok x ∧ p.toggle i = .ok q
      ∧ countOf q.opcodeCounts x.opcode + 1 = countOf p.opcodeCounts x.opcode
      ∧ countOf q.opcodeCounts x.opcode.toggled = countOf p.opcodeCounts x.opcode.toggled + 1
      ∧ countOf q.opcodeCounts .acc = countOf p.opcodeCounts .acc := by
  have htallies := p.tallies_opcodeCounts
  refine ⟨⟨htallies.mem, htallies.nodup, htallies.ascending,
      fun o n h => ⟨htallies.eq_count_of_mem h, htallies.pos_of_mem h⟩, ?_⟩,
    ⟨?_, fun settings => ⟨fun hquiet => ⟨⟨p.attempts, ?_⟩, p.quietRepair settings.workers, ?_⟩,
      fun ys h => ?_, fun r hworkers h => ?_⟩⟩, fun i hi => ?_⟩
  · rw [htallies.total, opcodes, List.length_map, length_toList]
  · rw [countOf_opcodeCounts, countOf_opcodeCounts, length_candidates]
  · exact (p.yields_survey settings).ok (by simp [hquiet])
  · exact (p.yields_repair settings).ok (by simp [hquiet])
  · rw [(p.yields_survey settings).eq_of_ending h, length_attempts]
  · rw [(p.yields_repair settings).eq_of_ending h, quietRepair, if_pos hworkers,
      attempts_lowestSuccess, length_attempts]
  · obtain ⟨x, hx, hswap⟩ := mem_candidates_iff.mp hi
    have hcounts := count_opcodes_swapAt hx
    refine ⟨x, p.swapAt i, get_natCast_eq_ok hx, toggle_eq_ok hx, ?_⟩
    simp only [countOf_opcodeCounts]
    -- The opcode of a candidate is one of two; for either the three counts are instances of one
    -- equation.
    obtain ⟨opcode, n⟩ := x
    cases opcode with
    | acc => cases hswap
    | jmp => exact ⟨hcounts .jmp, hcounts .nop, hcounts .acc⟩
    | nop => exact ⟨hcounts .nop, hcounts .jmp, hcounts .acc⟩

/-- The swap of the demonstration at `7` leaves two jumps of three. -/
theorem opcode_counts_exact_demonstration :
    (.jmp, 3) ∈ demonstration.opcodeCounts ∧ demonstration.opcodes.count .jmp = 3
    ∧ (∃ r, (demonstration.repair { workers := 2 }).ending = .ok r ∧ r.attempts = 4)
    ∧ 7 ∈ demonstration.candidates
    ∧ ∃ q, demonstration.toggle 7 = .ok q ∧ countOf q.opcodeCounts .jmp = 2
      ∧ countOf q.opcodeCounts .nop = 2 ∧ countOf q.opcodeCounts .acc = 5 := by
  obtain ⟨⟨-, -, -, hexact, -⟩, ⟨-, hmade⟩, hswap⟩ := opcode_counts_exact demonstration
  obtain ⟨hquiet, -, hattempts⟩ := hmade { workers := 2 }
  obtain ⟨-, r, hr⟩ := hquiet rfl
  have hmem : (Opcode.jmp, 3) ∈ demonstration.opcodeCounts := by decide
  have hcandidate : 7 ∈ demonstration.candidates := by decide
  obtain ⟨x, q, hx, hq, hless, hmore, hsame⟩ := hswap 7 hcandidate
  obtain rfl : x = ⟨.jmp, -4⟩ := Except.ok.inj (hx.symm.trans rfl)
  exact ⟨hmem, (hexact _ _ hmem).1.symm, ⟨r, hr, hattempts r (by decide) hr⟩, hcandidate, q, hq,
    Nat.succ.inj hless, hmore, hsame⟩

end Program

end AccumulatorMachine
