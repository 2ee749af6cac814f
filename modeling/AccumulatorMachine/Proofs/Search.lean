import Mathlib
import AccumulatorMachine.Proofs.Swap

/-!
# `AccumulatorMachine.Proofs.Search`: a search finds the lowest repair

`p.RepairedBy i a` says in terms of the plain machine that a swap at
`i` repairs the program: there is an instruction to swap, and on the
swapped program the plain machine comes from accumulator `0` to the end
with `a`.

The attempts of a survey are `p.attempts`, one for each instruction to
swap in ascending order (`ending_survey`). A search that goes through
the addresses stops at the first success, and one that makes all
attempts picks the lowest. In an ascending list these are the same
(`lowestSuccess_eq`), and so both find the lowest repair
(`repair_cases`). They differ in the number of attempts.

`repair_sequential` puts this together for a search that goes through
the addresses.
-/

set_option autoImplicit false

namespace AccumulatorMachine

/-! ### The first success and the lowest one -/

/-- The result of going through attempts until one succeeds; `made` of
them were made before. -/
def firstSuccess (made : Nat) : List Attempt → Repair
  | [] => .notFound made
  | x :: rest =>
    match x.success? with
    | some (index, accumulator) => .repaired index accumulator (made + 1)
    | none => firstSuccess (made + 1) rest

/-- The same result with another number of attempts. -/
def Repair.withAttempts (n : Nat) : Repair → Repair
  | .repaired index accumulator _ => .repaired index accumulator n
  | .notFound _ => .notFound n

/-- All else of the record stays as it is. -/
@[simp]
theorem Repair.record_withAttempts (r : Repair) (n : Nat) :
    (r.withAttempts n).record = { r.record with attempts := n } := by
  cases r <;> rfl

/-- The attempts are those that were set. -/
@[simp]
theorem Repair.attempts_withAttempts (r : Repair) (n : Nat) :
    (r.withAttempts n).attempts = n := by
  cases r <;> rfl

/-- Either no attempt succeeds, or those before the first success are
counted with it. -/
theorem firstSuccess_cases {α : Type} (f : α → Attempt) (made : Nat) (l : List α) :
    (firstSuccess made (l.map f) = .notFound (made + l.length)
      ∧ ∀ x ∈ l, (f x).success? = none)
    ∨ ∃ before x rest index a, l = before ++ x :: rest
      ∧ (∀ y ∈ before, (f y).success? = none) ∧ (f x).success? = some (index, a)
      ∧ firstSuccess made (l.map f) = .repaired index a (made + before.length + 1) := by
  induction l generalizing made with
  | nil => exact .inl ⟨rfl, fun x hx => by cases hx⟩
  | cons x l ih =>
      cases h : (f x).success? with
      | some found =>
          obtain ⟨index, a⟩ := found
          refine .inr ⟨[], x, l, index, a, rfl, fun y hy => (by cases hy), h, ?_⟩
          simp [firstSuccess, h]
      | none =>
          -- One more attempt was made, and the rest is a search with that many behind it.
          simp only [List.map_cons, firstSuccess, h]
          rcases ih (made + 1) with ⟨hres, hall⟩ | ⟨before, y, rest, index, a, rfl, hb, hy, hres⟩
          · refine .inl ⟨?_, ?_⟩
            · rw [hres, List.length_cons, show made + 1 + l.length = made + (l.length + 1) by omega]
            · rintro y (_ | ⟨_, hy⟩)
              · exact h
              · exact hall y hy
          · refine .inr ⟨x :: before, y, rest, index, a, rfl, ?_, hy, ?_⟩
            · rintro z (_ | ⟨_, hz⟩)
              · exact h
              · exact hb z hz
            · rw [hres, List.length_cons,
                show made + 1 + before.length = made + (before.length + 1) by omega]

/-- A success tells the place of its attempt. -/
theorem Attempt.index_of_success? {x : Attempt} {index a : Int}
    (h : x.success? = some (index, a)) : index = x.index := by
  unfold success? at h
  split at h
  · cases h
    rfl
  · cases h

/-- The lowest of ascending entries is the first. -/
theorem lowest_of_pairwise {l : List (Int × Int)} (h : l.Pairwise fun x y => x.1 < y.1) :
    lowest l = l.head? := by
  induction l with
  | nil => rfl
  | cons x l ih =>
      rw [List.pairwise_cons] at h
      rw [lowest, ih h.2]
      -- The lowest of the rest is its first entry, which is higher.
      cases l with
      | nil => rfl
      | cons y l =>
          have hlt : x.1 < y.1 := h.1 y List.mem_cons_self
          simp only [List.head?_cons, show ¬y.1 < x.1 by omega, if_false]

/-- Successes ascend if their attempts do. -/
theorem pairwise_filterMap_success? {l : List Attempt}
    (h : l.Pairwise fun x y => x.index < y.index) :
    (l.filterMap Attempt.success?).Pairwise fun x y => x.1 < y.1 := by
  refine h.filterMap _ fun x y hxy b hb c hc => ?_
  rw [Attempt.index_of_success? (a := b.2) hb, Attempt.index_of_success? (a := c.2) hc]
  exact hxy

/-- Of ascending attempts, the first success is the lowest. -/
theorem lowestSuccess_eq {l : List Attempt} (h : l.Pairwise fun x y => x.index < y.index)
    (made : Nat) : lowestSuccess l = (firstSuccess made l).withAttempts l.length := by
  -- Both hand on the first success; only the number of attempts that
  -- were made before changes on the way.
  have hfirst : ∀ (made n : Nat) (l : List Attempt),
      (match (l.filterMap Attempt.success?).head? with
        | some (index, a) => Repair.repaired index a n
        | none => Repair.notFound n) = (firstSuccess made l).withAttempts n := by
    intro made n l
    induction l generalizing made with
    | nil => rfl
    | cons x l ih =>
        cases hx : x.success? with
        | some found => simp [firstSuccess, hx, Repair.withAttempts]
        | none =>
            rw [List.filterMap_cons_none hx, ih (made + 1)]
            simp [firstSuccess, hx]
  rw [lowestSuccess, lowest_of_pairwise (pairwise_filterMap_success? h)]
  exact hfirst made l.length l

namespace Program

variable {p : Program} {x : Instruction} {i : Nat}

/-! ### The instructions to swap -/

/-- The instructions that may have been damaged, in ascending order of
their addresses. -/
def swappable (p : Program) : List (Instruction × Nat) :=
  p.toList.zipIdx.filter fun entry => entry.1.isToggleable

/-- An instruction is among those to swap exactly if it is at its address
and its opcode has another one. -/
theorem mem_swappable_iff :
    (x, i) ∈ p.swappable ↔ p.toList[i]? = some x ∧ x.isToggleable = true := by
  rw [swappable, List.mem_filter, List.mk_mem_zipIdx_iff_getElem?]

/-- The candidates are where there is something to swap. -/
theorem candidates_eq (p : Program) : p.candidates = p.swappable.map (·.2) := rfl

/-- Picking some of the instructions leaves them in order. -/
theorem pairwise_swappable (p : Program) : p.swappable.Pairwise fun e f => e.2 < f.2 := by
  refine List.Pairwise.sublist List.filter_sublist ?_
  -- Before the filter the places are `0`, `1`, `2` and so on.
  have h : (p.toList.zipIdx.map Prod.snd).Pairwise (· < ·) := by
    rw [List.zipIdx_map_snd]
    exact List.pairwise_lt_range'
  exact List.pairwise_map.mp h

/-- How many of the instructions to swap are at the first `m` places. -/
theorem countP_filter_zipIdx (l : List Instruction) (n m : Nat) :
    ((l.zipIdx n).filter fun entry => entry.1.isToggleable).countP (fun entry => entry.2 < n + m)
      = (l.take m).countP Instruction.isToggleable := by
  induction l generalizing n m with
  | nil => simp
  | cons x l ih =>
      cases m with
      | zero =>
          -- All places are `n` or higher.
          rw [List.take_zero, List.countP_nil, List.countP_eq_zero]
          intro entry hentry
          have hle := List.le_snd_of_mem_zipIdx (List.mem_filter.mp hentry).1
          simp only [decide_eq_true_eq]
          omega
      | succ m =>
          have hrest := ih (n + 1) m
          rw [show n + 1 + m = n + (m + 1) by omega] at hrest
          rw [List.zipIdx_cons, List.take_succ_cons, List.countP_cons, List.filter_cons]
          split
          · rw [List.countP_cons, hrest, if_pos (by simp)]
          · rw [hrest, Nat.add_zero]

/-- The number of instructions to swap up to an address. -/
theorem countP_swappable (p : Program) (i : Nat) :
    p.swappable.countP (fun entry => entry.2 < i + 1)
      = (p.toList.take (i + 1)).countP Instruction.isToggleable := by
  have h := countP_filter_zipIdx p.toList 0 (i + 1)
  rwa [Nat.zero_add] at h

/-- The number of all instructions to swap. -/
theorem length_swappable (p : Program) :
    p.swappable.length = p.toList.countP Instruction.isToggleable := by
  have h := countP_filter_zipIdx p.toList 0 p.toList.length
  rw [List.take_length] at h
  rw [swappable, ← h, eq_comm, List.countP_eq_length]
  intro entry hentry
  have hlt := List.snd_lt_of_mem_zipIdx (List.mem_filter.mp hentry).1
  simp only [decide_eq_true_eq]
  omega

/-- The number of instructions to swap up to one of them is its place
among them. -/
theorem length_of_swappable_eq {before rest : List (Instruction × Nat)}
    (h : p.swappable = before ++ (x, i) :: rest) :
    before.length + 1 = (p.toList.take (i + 1)).countP Instruction.isToggleable := by
  have hpair := h ▸ p.pairwise_swappable
  rw [List.pairwise_append, List.pairwise_cons] at hpair
  obtain ⟨-, ⟨hrest, -⟩, hbefore⟩ := hpair
  -- The list ascends, so what is up to `i` is `before` and `i` itself.
  rw [← countP_swappable, h, List.countP_append, List.countP_cons]
  have hb : before.countP (fun entry => entry.2 < i + 1) = before.length := by
    rw [List.countP_eq_length]
    intro entry hentry
    have hlt := hbefore entry hentry (x, i) List.mem_cons_self
    simp only [decide_eq_true_eq]
    omega
  have hr : rest.countP (fun entry => entry.2 < i + 1) = 0 := by
    rw [List.countP_eq_zero]
    intro entry hentry
    have hlt := hrest entry hentry
    simp only [decide_eq_true_eq]
    omega
  rw [hb, hr]
  simp

/-! ### Surveys and searches -/

/-- The attempts of a survey. -/
def attempts (p : Program) : List Attempt := p.swappable.map p.attemptAt

/-- Attempts are made from the first address on, so the first success of a
search is the lowest one. -/
theorem pairwise_attempts (p : Program) :
    p.attempts.Pairwise fun x y => x.index < y.index := by
  refine List.pairwise_map.mpr (p.pairwise_swappable.imp fun {e f} h => ?_)
  simp only [attemptAt]
  omega

/-- Making the attempts at all candidates gives the attempts in
ascending order, whatever the settings. -/
theorem ending_mapM_attempt (p : Program) (settings : Settings) :
    (p.candidates.mapM fun (i : Nat) => p.attempt i settings).ending = .ok p.attempts := by
  rw [candidates_eq, List.mapM_map]
  refine Transcript.ending_mapM_of_ok fun entry hentry => ?_
  show (p.attempt entry.2 settings).ending = _
  rw [attempt_eq (mem_swappable_iff.mp hentry).1]

/-- A quiet survey has the attempts in ascending order, whatever the
number of workers. -/
theorem ending_survey (p : Program) (initial workers : Int) :
    (p.survey { initial, workers }).ending = .ok p.attempts := by
  rw [survey, Transcript.ending_bind_of_ok (p.ending_mapM_attempt _)]
  rfl

/-- A quiet search through addresses stops at the first success. -/
theorem ending_searchFrom {l : List (Instruction × Nat)} (hl : ∀ entry ∈ l, entry ∈ p.swappable)
    (initial workers : Int) (made : Nat) :
    (p.searchFrom { initial, workers } made (l.map (·.2))).ending
      = .ok (firstSuccess made (l.map p.attemptAt)) := by
  induction l generalizing made with
  | nil => rfl
  | cons entry l ih =>
      have hentry := (mem_swappable_iff.mp (hl entry List.mem_cons_self)).1
      have hrest := fun n => ih (fun e he => hl e (List.mem_cons_of_mem entry he)) n
      rw [List.map_cons, searchFrom, attempt_eq hentry, Transcript.ending_bind_of_ok rfl,
        List.map_cons, firstSuccess]
      -- A quiet search prints nothing between two attempts.
      simp only [Bool.false_eq_true, if_false]
      cases (p.attemptAt (entry.1, entry.2)).success? with
      | some found => rfl
      | none => exact hrest (made + 1)

/-- A search without workers stops at the first success, and one with
workers picks the lowest. -/
theorem ending_repair (p : Program) (initial workers : Int) :
    (p.repair { initial, workers }).ending
      = .ok (if 0 < workers then lowestSuccess p.attempts else firstSuccess 0 p.attempts) := by
  have hsearch := ending_searchFrom (fun _ h => h) initial workers 0 (l := p.swappable)
  unfold repair
  split
  · have hmap : (lowestSuccess <$> p.survey { initial, workers }).ending
        = .ok (lowestSuccess p.attempts) := by
      rw [Transcript.ending_map, ending_survey]
      rfl
    rw [Transcript.ending_bind_of_ok hmap]
    rfl
  · rw [candidates_eq, Transcript.ending_bind_of_ok hsearch]
    rfl

/-! ### Repairs in terms of the plain machine -/

/-- Whether a swap at an address repairs the program: there is an
instruction to swap, and on the swapped program the plain machine comes
from accumulator `0` to the end with `a`. -/
def RepairedBy (p : Program) (i : Nat) (a : Int) : Prop :=
  (∃ x, p.toList[i]? = some x ∧ x.isToggleable = true)
    ∧ ∃ n, (p.swapAt i).after n ⟨0, 0⟩ = some ⟨p.size, a⟩

/-- The same without the operations of the program: the instruction at the
address is taken out, and its opposite put in. -/
theorem repairedBy_iff_opposite {a : Int} :
    p.RepairedBy i a
      ↔ ∃ (before after : List Instruction) (x y : Instruction),
        p = ofList (before ++ x :: after) ∧ before.length = i ∧ x.Opposite y
        ∧ ∃ n, (ofList (before ++ y :: after)).after n ⟨0, 0⟩
          = some ⟨(before ++ y :: after).length, a⟩ := by
  constructor
  · rintro ⟨⟨x, hx, hswap⟩, n, hn⟩
    obtain ⟨before, after, hp, hlength, hq⟩ := (swapAt_eq_iff hx).mp rfl
    refine ⟨before, after, x, x.toggled, ext_toList (by simpa using hp), hlength,
      Instruction.opposite_iff.mpr ⟨hswap, rfl⟩, n, ?_⟩
    have heq : p.swapAt i = ofList (before ++ x.toggled :: after) := ext_toList (by simpa using hq)
    -- The end is at the number of instructions, which both programs have.
    rw [← heq, hn, ← length_toList, hp, List.length_append, List.length_append,
      List.length_cons, List.length_cons]
  · rintro ⟨before, after, x, y, rfl, rfl, hopposite, n, hn⟩
    obtain ⟨hswap, rfl⟩ := Instruction.opposite_iff.mp hopposite
    have hx : (ofList (before ++ x :: after)).toList[before.length]? = some x := by simp
    have heq : ofList (before ++ x.toggled :: after)
        = (ofList (before ++ x :: after)).swapAt before.length :=
      (swapAt_eq_iff hx).mpr ⟨before, after, by simp, rfl, by simp⟩
    refine ⟨⟨x, hx, hswap⟩, n, ?_⟩
    rw [← heq, hn, ← length_toList, toList_ofList, List.length_append, List.length_append,
      List.length_cons, List.length_cons]

/-- Whether an address is the lowest one whose swap repairs the
program. -/
def LowestRepair (p : Program) (i : Nat) (a : Int) : Prop :=
  p.RepairedBy i a ∧ ∀ j < i, ∀ b, ¬p.RepairedBy j b

/-- A repair at an address of the program is a success of the attempt
there. -/
theorem repairedBy_iff (h : (x, i) ∈ p.swappable) {a : Int} :
    p.RepairedBy i a ↔ (p.attemptAt (x, i)).success? = some ((i : Int), a) := by
  rw [success?_attemptAt_eq_some_iff]
  simp only [RepairedBy, true_and, and_iff_right_iff_imp]
  exact fun _ => ⟨x, mem_swappable_iff.mp h⟩

/-- An attempt that does not succeed leaves no repair at its
address. -/
theorem not_repairedBy_of_success?_eq_none {l : List (Instruction × Nat)}
    (hnone : ∀ entry ∈ l, (p.attemptAt entry).success? = none)
    (hl : ∀ x, (x, i) ∈ p.swappable → (x, i) ∈ l) (a : Int) : ¬p.RepairedBy i a := by
  intro hrep
  obtain ⟨x, hx⟩ := hrep.1
  have hmem : (x, i) ∈ p.swappable := mem_swappable_iff.mpr hx
  rw [repairedBy_iff hmem, hnone _ (hl x hmem)] at hrep
  cases hrep

/-- Going through all attempts finds the lowest repair, counted with
the attempts before it, or tells that there is none. -/
theorem firstSuccess_attempts_cases (p : Program) :
    (∃ (i : Nat) (a : Int), firstSuccess 0 p.attempts
        = .repaired i a ((p.toList.take (i + 1)).countP Instruction.isToggleable)
      ∧ p.LowestRepair i a)
    ∨ (firstSuccess 0 p.attempts = .notFound (p.toList.countP Instruction.isToggleable)
      ∧ ∀ i a, ¬p.RepairedBy i a) := by
  rcases firstSuccess_cases p.attemptAt 0 p.swappable with
    ⟨hres, hnone⟩ | ⟨before, ⟨x, i⟩, rest, index, a, hl, hbefore, hx, hres⟩
  · right
    rw [Nat.zero_add, length_swappable] at hres
    exact ⟨hres, fun i => not_repairedBy_of_success?_eq_none hnone fun _ h => h⟩
  · left
    have hmem : (x, i) ∈ p.swappable := by
      rw [hl]
      exact List.mem_append_right _ List.mem_cons_self
    obtain rfl : index = i := Attempt.index_of_success? hx
    refine ⟨i, a, ?_, (repairedBy_iff hmem).mpr hx, fun j hj => ?_⟩
    · rw [attempts, hres, Nat.zero_add, length_of_swappable_eq hl]
    · refine not_repairedBy_of_success?_eq_none hbefore fun y hy => ?_
      -- What lies below `i` comes before it in the list.
      have hpair := hl ▸ p.pairwise_swappable
      rw [List.pairwise_append, List.pairwise_cons] at hpair
      rw [hl, List.mem_append, List.mem_cons] at hy
      rcases hy with hy | hy | hy
      · exact hy
      · cases hy
        exact absurd hj (Nat.lt_irrefl i)
      · have hlt := hpair.2.1.1 _ hy
        omega

/-- A quiet search finds the lowest repair, or tells that there is
none. With workers it makes all attempts, and otherwise those up to the
repair. -/
theorem repair_cases (p : Program) (initial workers : Int) :
    (∃ (i : Nat) (a : Int), (p.repair { initial, workers }).ending
        = .ok (.repaired i a (if 0 < workers then p.toList.countP Instruction.isToggleable
            else (p.toList.take (i + 1)).countP Instruction.isToggleable))
      ∧ p.LowestRepair i a)
    ∨ ((p.repair { initial, workers }).ending
        = .ok (.notFound (p.toList.countP Instruction.isToggleable))
      ∧ ∀ i a, ¬p.RepairedBy i a) := by
  have hlen : p.attempts.length = p.toList.countP Instruction.isToggleable := by
    rw [attempts, List.length_map, length_swappable]
  -- With or without workers the result is the first success, up to the
  -- number of attempts.
  rw [ending_repair, lowestSuccess_eq p.pairwise_attempts 0, hlen]
  rcases p.firstSuccess_attempts_cases with ⟨i, a, hres, hlow⟩ | ⟨hres, hnone⟩
  · refine .inl ⟨i, a, ?_, hlow⟩
    rw [hres]
    split <;> rfl
  · refine .inr ⟨?_, hnone⟩
    rw [hres]
    split <;> rfl

/-- A quiet search without workers meets its specification in terms of
the plain machine: it finds a repair exactly if there is one, and tells
the lowest with the accumulator at the end. It makes the attempts up to
there, and all of them if there is no repair. -/
theorem repair_sequential (p : Program) (initial workers : Int) (hw : workers ≤ 0) :
    ∃ r, (p.repair { initial, workers }).ending = .ok r
      ∧ (r.record.found = true ↔ ∃ i a, p.RepairedBy i a)
      ∧ (r.record.found = true → ∃ (i : Nat) (a : Int), p.LowestRepair i a
          ∧ r.record
            = { found := true, index := some (i : Int), accumulator := some a,
                attempts := ((p.toList.take (i + 1)).countP Instruction.isToggleable : Nat) })
      ∧ (r.record.found = false → r.record
            = { found := false, index := none, accumulator := none,
                attempts := (p.toList.countP Instruction.isToggleable : Nat) }) := by
  have hw' : ¬0 < workers := by omega
  rcases p.repair_cases initial workers with ⟨i, a, hres, hlow⟩ | ⟨hres, hnone⟩
  · rw [if_neg hw'] at hres
    exact ⟨_, hres, ⟨fun _ => ⟨i, a, hlow.1⟩, fun _ => rfl⟩, fun _ => ⟨i, a, hlow, rfl⟩,
      fun h => by cases h⟩
  · exact ⟨_, hres, ⟨fun h => (by cases h), fun ⟨i, a, h⟩ => absurd h (hnone i a)⟩,
      fun h => (by cases h), fun _ => rfl⟩

/-- In the demonstration the search ends at `7`, the fourth instruction
to swap. So no swap below repairs, which no run of the search alone
would tell of the plain machine. -/
theorem repair_sequential_demonstration :
    ((-1 : Int) ≤ 0)
      ∧ (demonstration.repair { initial := 5, workers := -1 }).ending = .ok (.repaired 7 8 4)
      ∧ demonstration.LowestRepair 7 8 := by
  have hres : (demonstration.repair { initial := 5, workers := -1 }).ending
      = .ok (.repaired 7 8 4) := by cbv
  obtain ⟨r, hr, -, hfound, -⟩ := repair_sequential demonstration 5 (-1) (by decide)
  obtain rfl : r = .repaired 7 8 4 := Except.ok.inj (hr.symm.trans hres)
  obtain ⟨i, a, hlow, hrecord⟩ := hfound rfl
  have hindex : (7 : Int) = i := Option.some.inj (congrArg RepairRecord.index hrecord)
  have haccumulator : (8 : Int) = a := Option.some.inj (congrArg RepairRecord.accumulator hrecord)
  obtain rfl : i = 7 := by omega
  exact ⟨by decide, hres, haccumulator ▸ hlow⟩

end Program

end AccumulatorMachine
