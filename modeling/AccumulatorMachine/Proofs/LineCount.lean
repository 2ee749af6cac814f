import AccumulatorMachine.Proofs.JoinedListing
import AccumulatorMachine.Proofs.Stages

/-!
# `AccumulatorMachine.Proofs.LineCount`: two ways to count the lines of a listing

The statistics of a run count line feeds, and one line more if there is
text after the last one. In reading, any of ten characters ends a line,
and a carriage return with the line feed after it is one end. So the
statistics miss a line for every line end of another kind that stands
within the text. At the very
end they do not: a text that is closed by another line end has text after
its last line feed, and so one line more (`lineCount_eq`).

`otherEnds` counts the line ends that are neither a line feed nor a
carriage return with one after it. Counting goes on behind a cut as if the
text began there, unless the cut goes through a pair (`otherEnds_append`).
-/

set_option autoImplicit false

namespace AccumulatorMachine

namespace Text

variable {c : Char} {s t : List Char}

/-- Whether every line end of a text is a line feed, or a carriage return
with a line feed after it. -/
def OnlyFeeds (t : List Char) : Prop :=
  ∀ before c after, t = before ++ c :: after → isLineEnd c = true → c = '\n' ∨ BeginsPair c after

/-- A text without the line end that closes it, if one does. -/
def withoutLastEnd (t : List Char) : List Char :=
  if ['\r', '\n'] <:+ t then t.dropLast.dropLast
  else if t.getLast?.any isLineEnd then t.dropLast
  else t

instance (c : Char) (t : List Char) : Decidable (BeginsPair c t) :=
  inferInstanceAs (Decidable (c = '\r' ∧ t.head? = some '\n'))

/-- How many line ends are neither a line feed nor a carriage return with
a line feed after it. -/
def otherEnds : List Char → Nat
  | [] => 0
  | c :: t => (if isLineEnd c ∧ c ≠ '\n' ∧ ¬BeginsPair c t then 1 else 0) + otherEnds t

/-! ### The other line ends -/

/-- The condition on the first character can be told apart from that on the
others, since a pair begins at its carriage return. -/
theorem onlyFeeds_cons :
    OnlyFeeds (c :: t) ↔ (isLineEnd c = true → c = '\n' ∨ BeginsPair c t) ∧ OnlyFeeds t := by
  constructor
  · intro h
    refine ⟨h [] c t rfl, fun before d after ht hd => ?_⟩
    exact h (c :: before) d after (by rw [ht, List.cons_append]) hd
  · rintro ⟨hc, ht⟩ before d after heq hd
    rcases List.cons_eq_append_iff.mp heq with ⟨rfl, hnil⟩ | ⟨rest, rfl, hrest⟩
    · cases hnil
      exact hc hd
    · exact ht rest d after hrest hd

/-- Having none of the other line ends is what `OnlyFeeds` asks for, so that
it can be found by counting. -/
theorem otherEnds_eq_zero_iff : otherEnds t = 0 ↔ OnlyFeeds t := by
  induction t with
  | nil =>
      refine iff_of_true rfl fun before c after h => ?_
      simp at h
  | cons c t ih =>
      rw [onlyFeeds_cons, ← ih, otherEnds, Nat.add_eq_zero_iff]
      refine and_congr_left fun _ => ?_
      simp only [ite_eq_right_iff, one_ne_zero, imp_false]
      tauto

/-- A line end is a line feed, a carriage return with one after it, or
another one. -/
theorem countP_isLineEnd (t : List Char) :
    t.countP isLineEnd = t.count '\n' + pairs t + otherEnds t := by
  have hr : isLineEnd '\r' = true := by decide
  have hn : isLineEnd '\n' = true := by decide
  induction t using lines_induction with
  | nil => rfl
  | pair t ih =>
      -- Two characters end lines, and the line feed is counted for both; the pair makes up for
      -- it.
      have hpair : BeginsPair '\r' ('\n' :: t) := ⟨rfl, rfl⟩
      rw [pairs_pair, otherEnds, otherEnds, List.countP_cons_of_pos hr,
        List.countP_cons_of_pos hn, ih]
      simp [hpair]
      omega
  | lineEnd c t hpair hc ih =>
      rw [pairs_cons hpair, otherEnds, List.countP_cons_of_pos hc, List.count_cons, ih]
      -- A line end that begins no pair is a line feed or one of the others.
      by_cases hfeed : c = '\n'
      · simp [hfeed]
        omega
      · simp [hfeed, hc, hpair]
        omega
  | inner c t hc ih =>
      have hpair : ¬BeginsPair c t := by
        rintro ⟨rfl, -⟩
        cases hc
      have hfeed : c ≠ '\n' := by
        rintro rfl
        cases hc
      rw [pairs_cons hpair, otherEnds, List.countP_cons_of_neg (by simp [hc]), List.count_cons, ih]
      simp [hfeed, hc]

/-- A cut that does not go through a pair leaves the other line ends as
they are. -/
theorem otherEnds_append (h : s.getLast? = some '\r' → t.head? ≠ some '\n') :
    otherEnds (s ++ t) = otherEnds s + otherEnds t := by
  induction s with
  | nil => simp [otherEnds]
  | cons c s ih =>
      -- Only the last character before the cut could begin a pair that goes through it.
      have hpair : BeginsPair c (s ++ t) ↔ BeginsPair c s := by
        cases s with
        | nil =>
          simp only [BeginsPair, List.nil_append, List.head?_nil, reduceCtorEq, and_false,
            iff_false]
          rintro ⟨rfl, ht⟩
          exact h rfl ht
        | cons d s => rfl
      have hs : otherEnds (s ++ t) = otherEnds s + otherEnds t := by
        cases s with
        | nil => simp [otherEnds]
        | cons d s => exact ih (by simpa using h)
      rw [List.cons_append, otherEnds, otherEnds, hs]
      simp only [hpair]
      omega

/-! ### The line end that closes a text -/

/-- Whether a pair closes a text shows at its last two characters. -/
theorem pair_suffix_snoc_iff :
    ['\r', '\n'] <:+ s ++ [c] ↔ c = '\n' ∧ s.getLast? = some '\r' := by
  constructor
  · rintro ⟨before, h⟩
    have hsnoc : (before ++ ['\r']) ++ ['\n'] = s ++ [c] := by simpa using h
    obtain ⟨rfl, hc⟩ := List.append_inj' hsnoc rfl
    cases hc
    exact ⟨rfl, by simp⟩
  · rintro ⟨rfl, h⟩
    obtain ⟨before, rfl⟩ := List.getLast?_eq_some_iff.mp h
    exact ⟨before, by simp⟩

/-- A carriage return and a line feed at the end are taken off
together. -/
theorem withoutLastEnd_pair (s : List Char) : withoutLastEnd (s ++ ['\r', '\n']) = s := by
  rw [withoutLastEnd, if_pos (List.suffix_append s _), ← List.singleton_append, ← List.append_assoc,
    List.dropLast_concat, List.dropLast_concat]

/-- Any other line end is taken off alone. -/
theorem withoutLastEnd_of_isLineEnd (hc : isLineEnd c = true)
    (h : ¬(c = '\n' ∧ s.getLast? = some '\r')) : withoutLastEnd (s ++ [c]) = s := by
  rw [withoutLastEnd, if_neg (mt pair_suffix_snoc_iff.mp h), if_pos (by simpa using hc),
    List.dropLast_concat]

/-- A text that ends within a line is left as it is. -/
theorem withoutLastEnd_of_not_isLineEnd (hc : isLineEnd c = false) :
    withoutLastEnd (s ++ [c]) = s ++ [c] := by
  have hfeed : c ≠ '\n' := by
    rintro rfl
    cases hc
  rw [withoutLastEnd, if_neg fun h => hfeed (pair_suffix_snoc_iff.mp h).1, if_neg (by simp [hc])]

/-- The line end that closes a text is one of the others unless it ends
with a line feed. -/
theorem otherEnds_eq (t : List Char) :
    otherEnds t = otherEnds (withoutLastEnd t)
      + if t.getLast?.any (fun c => isLineEnd c && c != '\n') then 1 else 0 := by
  rcases List.eq_nil_or_concat t with rfl | ⟨s, c, rfl⟩
  · rfl
  · rw [List.concat_eq_append, List.getLast?_concat, Option.any_some]
    by_cases hfeed : c = '\n'
    · subst hfeed
      -- A pair is taken off as a whole, and then the cut is in front of it.
      by_cases hr : s.getLast? = some '\r'
      · obtain ⟨before, rfl⟩ := List.getLast?_eq_some_iff.mp hr
        have hcut := otherEnds_append (s := before) (t := ['\r', '\n']) (by simp)
        rw [List.append_assoc, List.singleton_append, withoutLastEnd_pair, hcut]
        rfl
      · have hcut := otherEnds_append (s := s) (t := ['\n']) fun h => absurd h hr
        rw [withoutLastEnd_of_isLineEnd (by decide) (by simp [hr]), hcut]
        rfl
    · have hcut := otherEnds_append (s := s) (t := [c]) (by simp [hfeed])
      -- Any other last character is a line end of its own, or none.
      cases hc : isLineEnd c with
      | true =>
          rw [withoutLastEnd_of_isLineEnd hc (by simp [hfeed]), hcut]
          simp [otherEnds, BeginsPair, hc, hfeed]
      | false =>
          rw [withoutLastEnd_of_not_isLineEnd hc]
          simp

end Text

open Text

namespace Pipeline

variable {source : String} {p : Program}

/-- Reading a listing counts a line more than the statistics for every
other line end before the one that closes the text. -/
theorem lineCount_eq (source : String) :
    lineCount source = countLines source + otherEnds (withoutLastEnd source.toList) := by
  have hlines := length_lines source.toList
  have hends := countP_isLineEnd source.toList
  have hothers := otherEnds_eq source.toList
  unfold lineCount countLines
  cases hlast : source.toList.getLast? with
  | none =>
      simp only [hlast, Option.any_none, Bool.false_eq_true, if_false] at hlines hothers ⊢
      omega
  | some c =>
      simp only [hlast, Option.any_some] at hlines hothers ⊢
      -- The last character ends a line in both ways, in one of them, or in none.
      by_cases hfeed : c = '\n'
      · have hn : isLineEnd '\n' = true := by decide
        simp [hfeed, hn] at hlines hothers ⊢
        omega
      · cases hc : isLineEnd c with
        | true =>
            simp [hfeed, hc] at hlines hothers ⊢
            omega
        | false =>
            simp [hfeed, hc] at hlines hothers ⊢
            omega

/-- Every line gives one instruction or none. -/
theorem size_le_lineCount (h : Program.read source = .ok p) : p.size ≤ lineCount source := by
  have hlines := (readLines_eq_ok_iff.mp (Program.read_eq_ok_iff.mp h)).length_eq
  rw [Program.length_toList] at hlines
  rw [hlines]
  exact List.length_filter_le _ _

/-- A listing that is read has a report, unless the run is verbose. The
statistics of a report never count more lines than there are. They count
all of them exactly if the text, without the line end that closes it, has
no line end but line feeds and carriage returns with one after them. Then
there are no more instructions than the lines that were counted. -/
theorem line_counts_agree_iff (h : Program.read source = .ok p) (settings : Settings)
    (wanted : Bool) (clock : Clock) :
    (settings.verbose = false → ∃ report, (run source settings wanted clock).ending = .ok report)
    ∧ ∀ report, (run source settings wanted clock).ending = .ok report →
      report.statistics.sourceLines ≤ lineCount source
      ∧ (report.statistics.sourceLines = lineCount source
          ↔ OnlyFeeds (withoutLastEnd source.toList))
      ∧ (OnlyFeeds (withoutLastEnd source.toList) →
          report.statistics.instructionCount ≤ report.statistics.sourceLines) := by
  have hyields := yields_run (ending_load h) settings wanted clock
  have hcount := lineCount_eq source
  have hsize := size_le_lineCount h
  refine ⟨fun hquiet => ⟨_, hyields.ok (by simp [hquiet])⟩, fun report hreport => ?_⟩
  obtain rfl := hyields.eq_of_ending hreport
  show (countLines source : Int) ≤ lineCount source
    ∧ ((countLines source : Int) = lineCount source ↔ _)
    ∧ (_ → (p.size : Int) ≤ countLines source)
  rw [← otherEnds_eq_zero_iff]
  exact ⟨by omega, by omega, by omega⟩

/-- Two lines, the first one closed by a carriage return and a line feed
and the second one by a form feed. There is no other line end before the
last one, so both ways count two lines. -/
theorem line_counts_agree_iff_demonstration :
    Program.read "acc +1\r\nnop +0\x0c" = .ok (Program.ofList [⟨.acc, 1⟩, ⟨.nop, 0⟩])
    ∧ ∃ report, (run "acc +1\r\nnop +0\x0c" {} true (Clock.ofReadings [0])).ending = .ok report
      ∧ report.statistics.sourceLines = lineCount "acc +1\r\nnop +0\x0c"
      ∧ report.statistics.instructionCount ≤ report.statistics.sourceLines := by
  have hread : Program.read "acc +1\r\nnop +0\x0c"
      = .ok (Program.ofList [⟨.acc, 1⟩, ⟨.nop, 0⟩]) := by cbv
  obtain ⟨hquiet, hcounts⟩ := line_counts_agree_iff hread {} true (Clock.ofReadings [0])
  obtain ⟨report, hreport⟩ := hquiet rfl
  have hfeeds : OnlyFeeds (withoutLastEnd "acc +1\r\nnop +0\x0c".toList) :=
    otherEnds_eq_zero_iff.mp (by decide)
  obtain ⟨-, hiff, hcount⟩ := hcounts report hreport
  exact ⟨hread, report, hreport, hiff.mpr hfeeds, hcount hfeeds⟩

end Pipeline

end AccumulatorMachine
