import Mathlib.Order.Monotone.Defs
import AccumulatorMachine.Proofs.Stages

/-!
# `AccumulatorMachine.Proofs.StageTimes`: the times of the stages and of the whole

A run takes its readings of the clock as it goes: one at the start, one
before and one after every stage, and one at the end. Their numbers are
known (`Pipeline.timed`), and so is how many there are: six, or eight if
there was a search (`run_runClocked`).

A `Clock.IsExact` clock does not go back and loses nothing. By such a clock
the times of the stages are parts of the time of the whole
(`stage_times_disjoint`). Nothing is asked of how long a tick is.

The clock of the program rounds its readings to some bits. While they fit
into these it loses nothing either (`timed_of_orderedReadings`).
-/

set_option autoImplicit false

namespace AccumulatorMachine

open Numeral (AllShort)

/-! ### Exact clocks -/

namespace Clock

/-- A clock that does not go back, and that keeps the differences of its
readings as they are. -/
structure IsExact (clock : Clock) : Prop where
  monotone : Monotone clock.reading
  keep : ∀ ticks, clock.keep ticks = ticks

/-- Such a clock tells the difference of its readings. -/
theorem IsExact.elapsed {clock : Clock} (h : clock.IsExact) (first last : Nat) :
    clock.elapsed first last = clock.reading last - clock.reading first :=
  h.keep _

/-- So no time is negative, since a later reading is not lower. -/
theorem IsExact.elapsed_nonneg {clock : Clock} (h : clock.IsExact) {first last : Nat}
    (hle : first ≤ last) : 0 ≤ clock.elapsed first last := by
  rw [h.elapsed]
  exact Int.sub_nonneg_of_le (h.monotone hle)

/-- Two times that follow each other add up. -/
theorem IsExact.elapsed_add {clock : Clock} (h : clock.IsExact) (first mid last : Nat) :
    clock.elapsed first mid + clock.elapsed mid last = clock.elapsed first last := by
  rw [h.elapsed, h.elapsed, h.elapsed]
  omega

/-- Whether the readings do not go back, and are neither negative nor longer
than a time that is kept as it is. -/
structure OrderedReadings (readings : List Int) : Prop where
  ordered : readings.Pairwise (· ≤ ·)
  nonneg : ∀ ticks ∈ readings, 0 ≤ ticks
  short : ∀ ticks ∈ readings, ticks < Nat.pow 2 timeBits

namespace OrderedReadings

variable {readings : List Int}

/-- Such readings are taken as they are; the last one stays. -/
theorem reading_eq (h : OrderedReadings readings) (k : Nat) :
    (ofReadings readings).reading k = readings[min k (readings.length - 1)]?.getD 0 := by
  have hkept : ∀ ticks ∈ readings, keptTicks ticks = ticks := by
    intro ticks hmem
    have hnonneg := h.nonneg ticks hmem
    have hshort := h.short ticks hmem
    exact keptTicks_of_lt (by omega)
  by_cases hk : k < readings.length
  · have hmin : min k (readings.length - 1) = k := by omega
    simp [ofReadings, hmin, hk, hkept]
  · have hmin : min k (readings.length - 1) = readings.length - 1 := by omega
    rw [hmin, ← List.getLast?_eq_getElem?]
    cases hlast : readings.getLast? with
    | none => simp [ofReadings, hk, hlast, keptTicks_of_lt]
    | some ticks => simp [ofReadings, hk, hlast, hkept ticks (List.mem_of_getLast? hlast)]

/-- So the clock does not go back. -/
theorem monotone (h : OrderedReadings readings) : Monotone (ofReadings readings).reading := by
  intro i j hij
  rw [h.reading_eq, h.reading_eq]
  by_cases hempty : readings.length = 0
  · simp [List.length_eq_zero_iff.mp hempty]
  · have hi : min i (readings.length - 1) < readings.length := by omega
    have hj : min j (readings.length - 1) < readings.length := by omega
    rw [List.getElem?_eq_getElem hi, List.getElem?_eq_getElem hj]
    exact h.ordered.rel_get_of_le (a := ⟨_, hi⟩) (b := ⟨_, hj⟩) (by simp; omega)

/-- Its times lose nothing. -/
theorem elapsed_eq (h : OrderedReadings readings) (first last : Nat) :
    (ofReadings readings).elapsed first last
      = (ofReadings readings).reading last - (ofReadings readings).reading first := by
  have hbound : ∀ k, 0 ≤ (ofReadings readings).reading k
      ∧ (ofReadings readings).reading k < Nat.pow 2 timeBits := by
    intro k
    rw [h.reading_eq]
    cases hk : readings[min k (readings.length - 1)]? with
    | none => exact ⟨Int.le_refl 0, by decide⟩
    | some ticks =>
        have hmem := List.mem_of_getElem? hk
        exact ⟨h.nonneg ticks hmem, h.short ticks hmem⟩
  have hfirst := hbound first
  have hlast := hbound last
  exact keptTicks_of_lt (by omega)

/-- It is like an exact clock with the same readings. -/
theorem exists_isExact (h : OrderedReadings readings) :
    ∃ exact : Clock, exact.IsExact ∧ ∀ first last,
      (ofReadings readings).elapsed first last = exact.elapsed first last :=
  ⟨{ reading := (ofReadings readings).reading, keep := id }, ⟨h.monotone, fun _ => rfl⟩,
    h.elapsed_eq⟩

end OrderedReadings

end Clock

namespace Pipeline

variable {source : String} {p : Program}

/-! ### Parts of the whole -/

/-- The times of a run by an exact clock: no stage takes negative time, a
search that is not made takes none, and the stages take no more than the
whole. -/
theorem timed_of_isExact {clock : Clock} (h : clock.IsExact) (searched : Bool) (s : Statistics) :
    0 ≤ (timed clock searched s).parseTicks
    ∧ 0 ≤ (timed clock searched s).executionTicks
    ∧ 0 ≤ (timed clock searched s).repairTicks
    ∧ (timed clock searched s).parseTicks + (timed clock searched s).executionTicks
        + (timed clock searched s).repairTicks ≤ (timed clock searched s).totalTicks
    ∧ (searched = false → (timed clock searched s).repairTicks = 0) := by
  have hparse := h.elapsed_nonneg (show 1 ≤ 2 by omega)
  have hexecution := h.elapsed_nonneg (show 3 ≤ 4 by omega)
  -- The stages and what lies between them make up the whole.
  have hbefore := h.elapsed_nonneg (show 0 ≤ 1 by omega)
  have hbetween := h.elapsed_nonneg (show 2 ≤ 3 by omega)
  have hafter := h.elapsed_nonneg (show 4 ≤ 5 by omega)
  have hfive : clock.elapsed 0 5 = clock.elapsed 0 1 + clock.elapsed 1 2 + clock.elapsed 2 3
      + clock.elapsed 3 4 + clock.elapsed 4 5 := by
    simp only [h.elapsed_add]
  cases searched with
  | false =>
    refine ⟨hparse, hexecution, Int.le_refl 0, ?_, fun _ => rfl⟩
    show clock.elapsed 1 2 + clock.elapsed 3 4 + 0 ≤ clock.elapsed 0 5
    omega
  | true =>
    have hrepair := h.elapsed_nonneg (show 5 ≤ 6 by omega)
    have hend := h.elapsed_nonneg (show 6 ≤ 7 by omega)
    have hseven : clock.elapsed 0 7 = clock.elapsed 0 5 + clock.elapsed 5 6
        + clock.elapsed 6 7 := by
      simp only [h.elapsed_add]
    refine ⟨hparse, hexecution, hrepair, ?_, nofun⟩
    show clock.elapsed 1 2 + clock.elapsed 3 4 + clock.elapsed 5 6 ≤ clock.elapsed 0 7
    omega

/-- The clock of the program has readings that are kept to some bits. As long
as they are short, its times are parts of the whole all the same. -/
theorem timed_of_orderedReadings {readings : List Int} (h : Clock.OrderedReadings readings)
    (searched : Bool) (s : Statistics) :
    (timed (Clock.ofReadings readings) searched s).parseTicks
        + (timed (Clock.ofReadings readings) searched s).executionTicks
        + (timed (Clock.ofReadings readings) searched s).repairTicks
      ≤ (timed (Clock.ofReadings readings) searched s).totalTicks := by
  obtain ⟨exact, hexact, helapsed⟩ := h.exists_isExact
  have htimed : timed (Clock.ofReadings readings) searched s = timed exact searched s := by
    simp only [timed, helapsed]
  rw [htimed]
  exact (timed_of_isExact hexact searched s).2.2.2.1

/-- A report comes from the search that the run makes. -/
theorem repair_eq_of_ending (h : Program.read source = .ok p) {settings : Settings}
    {wanted : Bool} {clock : Clock} {report : Report}
    (hrun : (run source settings wanted clock).ending = .ok report) :
    report.repair = repairOf settings wanted p := by
  rw [(yields_run (ending_load h) settings wanted clock).eq_of_ending hrun]
  rfl

/-- Let a listing be read, and let the clock be exact. The run comes to a
report if it is not verbose or all integers that it prints can be written,
and only then. It has taken six readings if no search was made and eight
if one was. The times of the stages are not negative, the stages together
take no longer than the whole, and a search that was not made takes no
time. -/
theorem stage_times_disjoint (h : Program.read source = .ok p) (settings : Settings)
    (wanted : Bool) {clock : Clock} (hclock : clock.IsExact) :
    ((∃ report, (run source settings wanted clock).ending = .ok report)
      ↔ settings.verbose = false ∨ AllShort (shown source settings wanted p))
    ∧ ∀ report, (run source settings wanted clock).ending = .ok report →
      report.repair = repairOf settings wanted p
      ∧ ((runClocked source settings wanted clock).run 0).ending
          = .ok (report, if report.repair = none then 6 else 8)
      ∧ 0 ≤ report.statistics.parseTicks
      ∧ 0 ≤ report.statistics.executionTicks
      ∧ 0 ≤ report.statistics.repairTicks
      ∧ report.statistics.parseTicks + report.statistics.executionTicks
          + report.statistics.repairTicks ≤ report.statistics.totalTicks
      ∧ (report.repair = none → report.statistics.repairTicks = 0) := by
  have hrun := yields_run (ending_load h) settings wanted clock
  refine ⟨?_, fun report hreport => ?_⟩
  · rw [hrun.exists_ending_iff, Numeral.allShort_ite_nil]
    cases settings.verbose <;> simp
  · -- The run that takes readings comes to the same report; how many it took depends on the
    -- search.
    have hclocked : ((runClocked source settings wanted clock).run 0).ending
        = .ok (report, readings report.repair) := by
      rw [run_runClocked, Transcript.ending_map, hreport]
      rfl
    -- So the times of the report are differences of numbered readings.
    have htimes : report.statistics
        = timed clock report.repair.isSome (sizes source settings p report.repair) := by
      rw [hrun.eq_of_ending hreport]
      rfl
    obtain ⟨hparse, hexecution, hrepair, htotal, hnone⟩ :=
      timed_of_isExact hclock report.repair.isSome (sizes source settings p report.repair)
    rw [hclocked, htimes]
    refine ⟨repair_eq_of_ending h hreport, ?_, hparse, hexecution, hrepair, htotal,
      fun hsearch => hnone ?_⟩
    · cases report.repair <;> rfl
    · rw [hsearch]
      rfl

/-- A clock whose readings are the squares. -/
def squareClock : Clock where
  reading k := (k * k : Nat)
  keep := id

/-- Squares do not go back, and their differences grow, so each stage of a
run has a time of its own. -/
theorem isExact_squareClock : squareClock.IsExact where
  monotone _ _ h := Int.ofNat_le.mpr (Nat.mul_le_mul h h)
  keep _ := rfl

/-- The demonstration goes round, so that a search is made if one is
wanted. -/
theorem stage_times_disjoint_demonstration :
    Program.read demonstrationListing = .ok Program.demonstration
    ∧ ∃ searched left,
      (run demonstrationListing {} true squareClock).ending = .ok searched
      ∧ (run demonstrationListing {} false squareClock).ending = .ok left
      ∧ ((runClocked demonstrationListing {} true squareClock).run 0).ending = .ok (searched, 8)
      ∧ ((runClocked demonstrationListing {} false squareClock).run 0).ending = .ok (left, 6)
      ∧ searched.statistics.parseTicks + searched.statistics.executionTicks
          + searched.statistics.repairTicks ≤ searched.statistics.totalTicks
      ∧ left.statistics.repairTicks = 0 := by
  have hread : Program.read demonstrationListing = .ok Program.demonstration := by cbv
  have hfails : (Program.demonstration.outcome 0).succeeded = false := by cbv
  obtain ⟨hexists, hsearched⟩ := stage_times_disjoint hread {} true isExact_squareClock
  obtain ⟨hexists', hleft⟩ := stage_times_disjoint hread {} false isExact_squareClock
  obtain ⟨searched, hrun⟩ := hexists.mpr (.inl rfl)
  obtain ⟨left, hrun'⟩ := hexists'.mpr (.inl rfl)
  have hsome : searched.repair ≠ none := by
    rw [repair_eq_of_ending hread hrun, ne_eq, repairOf_eq_none_iff]
    simp [hfails]
  have hnone : left.repair = none := by
    rw [repair_eq_of_ending hread hrun', repairOf_eq_none_iff]
    exact .inl rfl
  obtain ⟨-, hclocked, -, -, -, htotal, -⟩ := hsearched searched hrun
  obtain ⟨-, hclocked', -, -, -, -, hzero⟩ := hleft left hrun'
  rw [if_neg hsome] at hclocked
  rw [if_pos hnone] at hclocked'
  exact ⟨hread, searched, left, hrun, hrun', hclocked, hclocked', htotal, hzero hnone⟩

end Pipeline

end AccumulatorMachine
