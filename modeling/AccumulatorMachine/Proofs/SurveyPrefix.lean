import AccumulatorMachine.Proofs.Pool
import AccumulatorMachine.Proofs.Printing

/-!
# `AccumulatorMachine.Proofs.SurveyPrefix`: a search without workers is a prefix of a survey

There are three ways to make attempts. A survey makes them all and prints
them at the end; a search with workers is a survey of which it picks the
lowest success; a search without workers stops at the first success and
prints each attempt when it is made.

`x.Reports verbose ys` says of each of them what it lets the reader know:
the log tells of the attempts `ys`, in order, and if it is verbose there is
a line for each of them and nothing else is printed. One attempt is
reported by `reports_attempt_bind`, and so a search through addresses
reports the attempts up to the first success (`reports_searchFrom`). In a
survey the attempts come first and the lines after them
(`reports_survey`).

What was printed for the first attempts of a list is where the text for the
whole list begins, and nothing is missing only if no attempt is
(`Reports.stdout_begins`). `repair_begins_survey` puts this together
for the attempts of a survey, which `IsSurvey` describes without the
search.
-/

set_option autoImplicit false

namespace AccumulatorMachine

open Numeral (AllShort)

variable {α β : Type} {verbose : Bool} {ys zs : List Attempt}

/-! ### Up to the first success -/

/-- Whether attempts are those up to the first success and with it, or all
of them if there is no success. -/
def UpToSuccess (zs ys : List Attempt) : Prop :=
  (zs = ys ∧ ∀ y ∈ ys, y.succeeded = false)
    ∨ ∃ before y rest, ys = before ++ y :: rest ∧ zs = before ++ [y]
      ∧ y.succeeded = true ∧ ∀ b ∈ before, b.succeeded = false

/-- An attempt that succeeded has a place and an accumulator. -/
theorem Attempt.isSome_success? (y : Attempt) : y.success?.isSome = y.succeeded := by
  obtain ⟨index, replaced, replacement, outcome⟩ := y
  cases outcome with
  | halted a => rfl
  | infiniteLoop a => rfl
  | jumpOutOfBounds pc => rfl

/-- The attempts of a search are those of the survey up to the first
success. -/
theorem upToSuccess_untilSuccess (ys : List Attempt) : UpToSuccess (untilSuccess ys) ys := by
  induction ys with
  | nil => exact .inl ⟨rfl, fun y hy => by cases hy⟩
  | cons x ys ih =>
      have hx := x.isSome_success?
      cases hsuccess : x.success? with
      | some found =>
          rw [hsuccess] at hx
          rw [untilSuccess_of_eq_some hsuccess]
          exact .inr ⟨[], x, ys, rfl, rfl, hx.symm, fun b hb => by cases hb⟩
      | none =>
          rw [hsuccess] at hx
          -- A failure in front of the list belongs to both.
          rw [untilSuccess_of_eq_none hsuccess]
          rcases ih with ⟨heq, hnone⟩ | ⟨before, y, rest, hys, hzs, hy, hbefore⟩
          · exact .inl ⟨by rw [heq], List.forall_mem_cons.mpr ⟨hx.symm, hnone⟩⟩
          · refine .inr ⟨x :: before, y, rest, ?_, ?_, hy,
              List.forall_mem_cons.mpr ⟨hx.symm, hbefore⟩⟩
            · rw [hys, List.cons_append]
            · rw [hzs, List.cons_append]

/-- The attempts up to the first success begin the list. -/
theorem UpToSuccess.isPrefix (h : UpToSuccess zs ys) : zs <+: ys := by
  rcases h with ⟨rfl, -⟩ | ⟨before, y, rest, rfl, rfl, -, -⟩
  · exact List.prefix_rfl
  · exact ⟨rest, by rw [List.append_assoc, List.singleton_append]⟩

/-- A search counts the attempts up to the first success. -/
theorem attempts_firstSuccess (made : Nat) (ys : List Attempt) :
    (firstSuccess made ys).attempts = made + (untilSuccess ys).length := by
  induction ys generalizing made with
  | nil => rfl
  | cons x ys ih =>
      cases hsuccess : x.success? with
      | some found =>
          rw [untilSuccess_of_eq_some hsuccess]
          simp only [firstSuccess, hsuccess, Repair.attempts, List.length_singleton]
      | none =>
          rw [untilSuccess_of_eq_none hsuccess, List.length_cons]
          simp only [firstSuccess, hsuccess]
          rw [ih (made + 1)]
          omega

/-- The choice among all attempts counts all of them. -/
theorem attempts_lowestSuccess (ys : List Attempt) : (lowestSuccess ys).attempts = ys.length := by
  unfold lowestSuccess
  split
  · rfl
  · rfl

/-- The result of a search is no attempt. -/
theorem Repair.attempt?_entry (r : Repair) : Entry.attempt? (.logged r.entry) = none := by
  cases r with
  | repaired index a n => rfl
  | notFound n => rfl

/-! ### What a computation reports -/

namespace Transcript

/-- Whether the log of a computation tells of attempts, in order, and, if
the computation is verbose, a line of each is all that is printed. -/
structure Reports (x : Transcript α) (verbose : Bool) (ys : List Attempt) : Prop where
  attempted : x.attempted = ys.map fun y => (y.index, y.outcome.record)
  printed : ∃ lines, (if verbose then ys else []).mapM Attempt.text = .ok lines
    ∧ x.printed = lines.map fun line => "  " ++ line ++ "\n"

namespace Reports

variable {x : Transcript α} {y : Transcript β} {a : α}

/-- A computation that prints nothing and makes no attempt. -/
theorem of_nil (hprinted : x.printed = []) (hattempted : x.attempted = []) (verbose : Bool) :
    x.Reports verbose [] where
  attempted := hattempted
  printed := ⟨[], by rw [ite_self]; rfl, hprinted⟩

/-- What is made of the value is not reported. -/
theorem map (h : x.Reports verbose ys) (f : α → β) : (f <$> x).Reports verbose ys :=
  ⟨h.attempted, h.printed⟩

/-- An entry for the log at the end that tells of no attempt. -/
theorem bind_log {entry : α → LogEntry} (h : x.Reports verbose ys) (ha : x.ending = .ok a)
    (hentry : Entry.attempt? (.logged (entry a)) = none) :
    (x >>= fun a => log (entry a) >>= fun _ => pure a).Reports verbose ys where
  attempted := by
    rw [attempted_bind ha, ← h.attempted]
    show x.attempted ++ [Entry.logged (entry a)].filterMap Entry.attempt? = _
    rw [List.filterMap_cons_none hentry, List.filterMap_nil, List.append_nil]
  printed := by
    obtain ⟨lines, hlines, hprinted⟩ := h.printed
    refine ⟨lines, hlines, ?_⟩
    rw [printed_bind ha, ← hprinted]
    exact List.append_nil x.printed

/-- What a verbose computation reports of the first attempts is where the
text of one that reports all of them begins. It is the same text only if
the first attempts are all. -/
theorem stdout_begins (hx : x.Reports true zs) (hy : y.Reports true ys) (h : zs <+: ys) :
    (∃ rest, y.stdout = x.stdout ++ rest) ∧ (x.stdout = y.stdout ↔ zs.length = ys.length) := by
  obtain ⟨others, rfl⟩ := h
  obtain ⟨lines, hlines, hprinted⟩ := hx.printed
  obtain ⟨lines', hlines', hprinted'⟩ := hy.printed
  simp only [if_true] at hlines hlines'
  -- The lines of all attempts are those of the first and then those of the others.
  rw [List.mapM_append, hlines] at hlines'
  cases hothers : others.mapM Attempt.text with
  | error e =>
      rw [hothers] at hlines'
      cases hlines'
  | ok rest =>
      rw [hothers] at hlines'
      obtain rfl : lines ++ rest = lines' := Except.ok.inj hlines'
      have hstdout : y.stdout
          = x.stdout ++ String.join (rest.map fun line => "  " ++ line ++ "\n") := by
        rw [stdout_eq, stdout_eq, hprinted, hprinted', List.map_append, String.join_append]
      refine ⟨⟨_, hstdout⟩, ?_⟩
      rw [hstdout, eq_comm, String.append_eq_left_iff, join_lines_eq_empty_iff,
        ← List.length_eq_zero_iff, length_of_mapM_eq_ok hothers, List.length_append]
      omega

end Reports

end Transcript

namespace Program

variable {p : Program} {x : Instruction} {i : Nat} {settings : Settings}

/-! ### One attempt -/

/-- An attempt prints nothing by itself: the search or the survey that makes
it does, if it is verbose. -/
theorem printed_attempt (h : p.toList[i]? = some x) (settings : Settings) :
    (p.attempt i settings).printed = [] := by
  rw [attempt_eq h]
  rfl

/-- It tells the log of itself, once. -/
theorem attempted_attempt (h : p.toList[i]? = some x) (settings : Settings) :
    (p.attempt i settings).attempted
      = [((p.attemptAt (x, i)).index, (p.attemptAt (x, i)).outcome.record)] := by
  rw [attempt_eq h]
  rfl

/-- An attempt that is printed when it is made is reported before all that
comes after it. -/
theorem reports_attempt_bind (h : p.toList[i]? = some x)
    (hshort : settings.verbose = true → AllShort (p.attemptAt (x, i)).shown)
    {f : Attempt → Transcript β}
    (hf : (f (p.attemptAt (x, i))).Reports settings.verbose zs) :
    (p.attempt i settings >>= fun y =>
        if settings.verbose then y.printIndented >>= fun _ => f y else f y).Reports
      settings.verbose (p.attemptAt (x, i) :: zs) := by
  obtain ⟨initial, verbose, workers⟩ := settings
  have hending : (p.attempt i ⟨initial, verbose, workers⟩).ending = .ok (p.attemptAt (x, i)) := by
    rw [attempt_eq h]
  obtain ⟨lines, hlines, hprinted⟩ := hf.printed
  cases verbose with
  | false =>
      -- Nothing is printed, so there are no lines to put in front.
      refine ⟨?_, [], rfl, ?_⟩
      · rw [Transcript.attempted_bind hending, attempted_attempt h]
        exact congrArg _ hf.attempted
      · cases hlines
        rw [Transcript.printed_bind hending, printed_attempt h]
        exact hprinted
  | true =>
      -- The line of this attempt comes before the lines of the others.
      obtain ⟨line, hline⟩ := (Shows.text_attempt (p.attemptAt (x, i))).written (hshort rfl)
      have hprint : (p.attemptAt (x, i)).printIndented = ⟨[Transcript.indented line], .ok ()⟩ := by
        show Transcript.printIndented (p.attemptAt (x, i)).text = _
        rw [hline, Transcript.printIndented_ok]
      refine ⟨?_, line :: lines, ?_, ?_⟩
      · rw [Transcript.attempted_bind hending, attempted_attempt h]
        simp only [if_true]
        rw [hprint, Transcript.attempted_bind rfl, hf.attempted]
        rfl
      · simp only [if_true] at hlines ⊢
        rw [List.mapM_cons, hline, hlines]
        rfl
      · rw [Transcript.printed_bind hending, printed_attempt h]
        simp only [if_true]
        rw [hprint, Transcript.printed_bind rfl, hprinted]
        rfl

/-! ### Surveys and searches -/

/-- A search through addresses reports the attempts up to the first
success. -/
theorem reports_searchFrom {l : List (Instruction × Nat)} (hl : ∀ entry ∈ l, entry ∈ p.swappable)
    (made : Nat) (hshort : settings.verbose = true →
      AllShort ((untilSuccess (l.map p.attemptAt)).flatMap Attempt.shown)) :
    (p.searchFrom settings made (l.map (·.2))).Reports settings.verbose
      (untilSuccess (l.map p.attemptAt)) := by
  induction l generalizing made with
  | nil => exact .of_nil rfl rfl _
  | cons entry l ih =>
      have hentry := (mem_swappable_iff.mp (hl entry List.mem_cons_self)).1
      rw [List.map_cons, List.map_cons, searchFrom]
      rw [List.map_cons] at hshort
      cases hsuccess : (p.attemptAt entry).success? with
      | some found =>
          rw [untilSuccess_of_eq_some hsuccess] at hshort ⊢
          refine reports_attempt_bind hentry (fun hv n hn => hshort hv n ?_) ?_
          · exact List.mem_flatMap.mpr ⟨_, List.mem_singleton_self _, hn⟩
          · -- Nothing comes after the success.
            simp only [hsuccess]
            exact .of_nil rfl rfl _
      | none =>
          -- After a failure the search goes on as one through the rest.
          rw [untilSuccess_of_eq_none hsuccess] at hshort ⊢
          simp only [List.flatMap_cons, Numeral.allShort_append] at hshort
          refine reports_attempt_bind hentry (fun hv => (hshort hv).1) ?_
          simp only [hsuccess]
          exact ih (fun e he => hl e (List.mem_cons_of_mem entry he)) (made + 1)
            fun hv => (hshort hv).2

/-- A survey reports all attempts. -/
theorem reports_survey (hshort : settings.verbose = true →
      AllShort (p.attempts.flatMap Attempt.shown)) :
    (p.survey settings).Reports settings.verbose p.attempts := by
  -- All attempts are made before the first line is printed.
  have hending := p.ending_mapM_attempt settings
  have hentries : (p.candidates.mapM fun (i : Nat) => p.attempt i settings).entries
      = p.swappable.flatMap fun entry => (p.attempt entry.2 settings).entries := by
    rw [candidates_eq, List.mapM_map]
    refine Transcript.entries_mapM_of_ok (g := p.attemptAt) fun entry hentry => ?_
    show (p.attempt entry.2 settings).ending = _
    rw [attempt_eq (mem_swappable_iff.mp hentry).1]
  have hattempted : (p.candidates.mapM fun (i : Nat) => p.attempt i settings).attempted
      = p.attempts.map fun y => (y.index, y.outcome.record) := by
    rw [Transcript.attempted, hentries, List.filterMap_flatMap, attempts, List.map_map,
      List.map_eq_flatMap]
    refine List.flatMap_congr fun entry hentry => ?_
    exact attempted_attempt (mem_swappable_iff.mp hentry).1 settings
  have hprinted : (p.candidates.mapM fun (i : Nat) => p.attempt i settings).printed = [] := by
    rw [Transcript.printed, hentries, List.filterMap_flatMap, List.flatMap_eq_nil_iff]
    intro entry hentry
    exact printed_attempt (mem_swappable_iff.mp hentry).1 settings
  obtain ⟨initial, verbose, workers⟩ := settings
  rw [survey]
  cases verbose with
  | false =>
      refine ⟨?_, [], rfl, ?_⟩
      · rw [Transcript.attempted_bind hending, hattempted]
        exact List.append_nil _
      · rw [Transcript.printed_bind hending, hprinted]
        rfl
  | true =>
      obtain ⟨lines, hlines⟩ := Transcript.exists_lines Shows.text_attempt (hshort rfl)
      have hprint : p.attempts.forM Attempt.printIndented
          = ⟨lines.map Transcript.indented, .ok ()⟩ :=
        Transcript.forM_printIndented_of_allShort Shows.text_attempt (hshort rfl) hlines
      refine ⟨?_, lines, hlines, ?_⟩
      · rw [Transcript.attempted_bind hending, hattempted]
        simp only [if_true]
        rw [hprint, Transcript.attempted_bind rfl]
        show _ ++ ((lines.map Transcript.indented).filterMap Entry.attempt? ++ []) = _
        rw [Transcript.filterMap_attempt?_indented, List.append_nil, List.append_nil]
      · rw [Transcript.printed_bind hending, hprinted]
        simp only [if_true]
        rw [hprint, Transcript.printed_bind rfl]
        show [] ++ ((lines.map Transcript.indented).filterMap Entry.printedText? ++ []) = _
        rw [Transcript.filterMap_printedText?_indented, List.append_nil, List.nil_append]

/-- A search reports the attempts that it makes. -/
theorem reports_repair (hshort : settings.verbose = true →
      AllShort ((p.made settings.workers).flatMap Attempt.shown)) :
    (p.repair settings).Reports settings.verbose (p.made settings.workers) := by
  unfold made at hshort ⊢
  unfold repair
  split
  · rename_i hw
    rw [if_pos hw] at hshort
    have hsurvey := (p.yields_survey settings).ok (Numeral.allShort_ite_nil.mpr hshort)
    have hmap : (lowestSuccess <$> p.survey settings).ending = .ok (lowestSuccess p.attempts) := by
      rw [Transcript.ending_map, hsurvey]
      rfl
    exact ((reports_survey hshort).map lowestSuccess).bind_log hmap (Repair.attempt?_entry _)
  · rename_i hw
    rw [if_neg hw] at hshort
    have hsearch := (yields_searchFrom (fun _ he => he) settings 0).ok
      (Numeral.allShort_ite_nil.mpr hshort)
    exact (reports_searchFrom (fun _ he => he) 0 hshort).bind_log hsearch (Repair.attempt?_entry _)

/-- A search counts the attempts that it makes. -/
theorem attempts_quietRepair_eq (p : Program) (workers : Int) :
    (p.quietRepair workers).attempts = (p.made workers).length := by
  unfold quietRepair made
  split
  · exact attempts_lowestSuccess p.attempts
  · rw [attempts_firstSuccess, Nat.zero_add]

/-- So it has a value if the lines of these attempts can be written. -/
theorem exists_repair (hshort : settings.verbose = true →
      AllShort ((p.made settings.workers).flatMap Attempt.shown)) :
    ∃ r, (p.repair settings).ending = .ok r ∧ r.attempts = (p.made settings.workers).length :=
  ⟨_, (p.yields_repair settings).ok (Numeral.allShort_ite_nil.mpr hshort),
    p.attempts_quietRepair_eq settings.workers⟩

/-! ### The attempts of a survey -/

/-- Whether attempts are those of a survey: one for each `jmp` and `nop`, in
ascending order of their addresses, each with the instruction there before
and after the swap and with the outcome of the program with that one
instruction replaced, from accumulator `0`. -/
structure IsSurvey (p : Program) (ys : List Attempt) : Prop where
  ascending : ys.Pairwise fun y z => y.index < z.index
  complete : ∀ (i : Nat) (x : Instruction), p.toList[i]? = some x → x.opcode ≠ .acc →
    ∃ y ∈ ys, y.index = i
  swapped : ∀ y ∈ ys, ∃ i : Nat, y.index = i ∧ p.toList[i]? = some y.replaced
    ∧ (y.replaced.opcode = .jmp ∧ y.replacement = ⟨.nop, y.replaced.argument⟩
      ∨ y.replaced.opcode = .nop ∧ y.replacement = ⟨.jmp, y.replaced.argument⟩)
    ∧ ((ofList (p.toList.set i y.replacement)).execute { initial := 0 }).ending = .ok y.outcome

/-- The swapped program has one instruction replaced. -/
theorem ofList_set_toggled (h : p.toList[i]? = some x) :
    ofList (p.toList.set i x.toggled) = p.swapAt i := by
  apply ext_toList
  rw [toList_ofList, toList_swapAt, List.modify_eq_set_getElem?, h]
  rfl

/-- The attempts are a survey in terms of the listing: one for each
instruction that is no addition, with the outcome of the program that has
the other opcode there. -/
theorem isSurvey_attempts (p : Program) : p.IsSurvey p.attempts where
  ascending := p.pairwise_attempts
  complete i x hi hx := by
    have htoggle : x.isToggleable = true := by
      obtain ⟨opcode, argument⟩ := x
      cases opcode with
      | acc => exact absurd rfl hx
      | jmp => rfl
      | nop => rfl
    exact ⟨p.attemptAt (x, i), List.mem_map_of_mem (mem_swappable_iff.mpr ⟨hi, htoggle⟩), rfl⟩
  swapped y hy := by
    obtain ⟨⟨x, i⟩, hentry, rfl⟩ := List.mem_map.mp hy
    obtain ⟨hi, hx⟩ := mem_swappable_iff.mp hentry
    refine ⟨i, rfl, hi, ?_, ?_⟩
    · obtain ⟨opcode, argument⟩ := x
      cases opcode with
      | acc => cases hx
      | jmp => exact .inl ⟨rfl, rfl⟩
      | nop => exact .inr ⟨rfl, rfl⟩
    · show ((ofList (p.toList.set i x.toggled)).execute { initial := 0 }).ending = _
      rw [ofList_set_toggled hi, execute_quiet]
      rfl

/-- A search without workers makes the attempts up to the first success. -/
theorem made_of_not_pos {workers : Int} (h : ¬0 < workers) :
    p.made workers = untilSuccess p.attempts := if_neg h

/-- A search with workers makes all attempts. -/
theorem made_of_pos {workers : Int} (h : 0 < workers) : p.made workers = p.attempts := if_pos h

/-- Let `ys` be the attempts of a survey and `zs` those up to the first
success. Whatever the settings are, a survey makes the attempts `ys`, also
if a pool of workers makes them by some schedule. A search without workers
makes the attempts `zs` and a search with workers the attempts `ys`; each
counts the attempts that it makes and, if it is verbose, prints their
lines. So what a search without workers prints is where the text of a
search with workers or of a survey begins, and it is the whole text only if
the numbers of attempts agree. A verbose computation is considered only if
the lines that it prints can be written. -/
theorem repair_begins_survey (p : Program) :
    ∃ ys zs, p.IsSurvey ys ∧ UpToSuccess zs ys
      ∧ (∀ c : Settings, (c.verbose = true → AllShort (ys.flatMap Attempt.shown)) →
          (p.survey c).ending = .ok ys ∧ (p.survey c).Reports c.verbose ys)
      ∧ (∀ (w : Int) (pool : Pool), 0 < w →
          Relation.ReflTransGen (Pool.Step p w) (Pool.initial p) pool →
          (∀ next, ¬Pool.Step p w pool next) → pool.results = ys)
      ∧ (∀ c : Settings, c.workers ≤ 0 →
          (c.verbose = true → AllShort (zs.flatMap Attempt.shown)) →
          (∃ r, (p.repair c).ending = .ok r ∧ r.attempts = zs.length)
            ∧ (p.repair c).Reports c.verbose zs)
      ∧ (∀ c : Settings, 0 < c.workers →
          (c.verbose = true → AllShort (ys.flatMap Attempt.shown)) →
          (∃ r, (p.repair c).ending = .ok r ∧ r.attempts = ys.length)
            ∧ (p.repair c).Reports c.verbose ys)
      ∧ ∀ c c' : Settings, c.workers ≤ 0 → 0 < c'.workers → c.verbose = true → c'.verbose = true →
          AllShort (ys.flatMap Attempt.shown) →
          ∃ r r', (p.repair c).ending = .ok r ∧ (p.repair c').ending = .ok r'
            ∧ (p.survey c').stdout = (p.repair c').stdout
            ∧ (∃ rest, (p.repair c').stdout = (p.repair c).stdout ++ rest)
            ∧ ((p.repair c).stdout = (p.repair c').stdout ↔ r.attempts = r'.attempts) := by
  have hzs := (upToSuccess_untilSuccess p.attempts).isPrefix
  have hsequential : ∀ c : Settings, c.workers ≤ 0 →
      (c.verbose = true → AllShort ((untilSuccess p.attempts).flatMap Attempt.shown)) →
      (∃ r, (p.repair c).ending = .ok r ∧ r.attempts = (untilSuccess p.attempts).length)
        ∧ (p.repair c).Reports c.verbose (untilSuccess p.attempts) := by
    intro c hw hshort
    rw [← made_of_not_pos (Int.not_lt.mpr hw)] at hshort ⊢
    exact ⟨exists_repair hshort, reports_repair hshort⟩
  have hthreaded : ∀ c : Settings, 0 < c.workers →
      (c.verbose = true → AllShort (p.attempts.flatMap Attempt.shown)) →
      (∃ r, (p.repair c).ending = .ok r ∧ r.attempts = p.attempts.length)
        ∧ (p.repair c).Reports c.verbose p.attempts := by
    intro c hw hshort
    rw [← made_of_pos hw] at hshort ⊢
    exact ⟨exists_repair hshort, reports_repair hshort⟩
  have hsurvey : ∀ c : Settings,
      (c.verbose = true → AllShort (p.attempts.flatMap Attempt.shown)) →
      (p.survey c).ending = .ok p.attempts ∧ (p.survey c).Reports c.verbose p.attempts :=
    fun c hshort =>
      ⟨(p.yields_survey c).ok (Numeral.allShort_ite_nil.mpr hshort), reports_survey hshort⟩
  have hpool : ∀ (w : Int) (pool : Pool), 0 < w →
      Relation.ReflTransGen (Pool.Step p w) (Pool.initial p) pool →
      (∀ next, ¬Pool.Step p w pool next) → pool.results = p.attempts :=
    fun w pool hw hschedule hend =>
      (Pool.valid_of_schedule hw hschedule).results_eq_of_no_step hw hend
  refine ⟨p.attempts, untilSuccess p.attempts, p.isSurvey_attempts,
    upToSuccess_untilSuccess p.attempts, hsurvey, hpool, hsequential, hthreaded, ?_⟩
  intro c c' hw hw' hv hv' hshort
  -- What can be written of all attempts can be written of the first ones.
  have hshort' : AllShort ((untilSuccess p.attempts).flatMap Attempt.shown) := by
    intro n hn
    obtain ⟨y, hy, hny⟩ := List.mem_flatMap.mp hn
    exact hshort n (List.mem_flatMap.mpr ⟨y, hzs.subset hy, hny⟩)
  obtain ⟨⟨r, hr, hattempts⟩, hreports⟩ := hsequential c hw fun _ => hshort'
  obtain ⟨⟨r', hr', hattempts'⟩, hreports'⟩ := hthreaded c' hw' fun _ => hshort
  obtain ⟨-, hreports''⟩ := hsurvey c' fun _ => hshort
  rw [hv] at hreports
  rw [hv'] at hreports' hreports''
  obtain ⟨hbegins, hsame⟩ := hreports.stdout_begins hreports' hzs
  refine ⟨r, r', hr, hr', ?_, hbegins, ?_⟩
  · exact (hreports''.stdout_begins hreports' List.prefix_rfl).2.mpr rfl
  · rw [hsame, hattempts, hattempts']

/-- Of the three attempts at this program the second one succeeds. A search
without workers stops there and prints two lines; with two workers these
are only the beginning. -/
theorem repair_begins_survey_demonstration :
    ∃ r r' rest,
      ((ofList [⟨.acc, 4⟩, ⟨.nop, 1⟩, ⟨.jmp, 0⟩, ⟨.nop, 5⟩]).repair
        { initial := 7, verbose := true, workers := -3 }).ending = .ok r
      ∧ ((ofList [⟨.acc, 4⟩, ⟨.nop, 1⟩, ⟨.jmp, 0⟩, ⟨.nop, 5⟩]).repair
        { verbose := true, workers := 2 }).ending = .ok r'
      ∧ r = .repaired 2 4 2 ∧ r' = .repaired 2 4 3 ∧ rest ≠ ""
      ∧ ((ofList [⟨.acc, 4⟩, ⟨.nop, 1⟩, ⟨.jmp, 0⟩, ⟨.nop, 5⟩]).survey
          { verbose := true, workers := 2 }).stdout
        = ((ofList [⟨.acc, 4⟩, ⟨.nop, 1⟩, ⟨.jmp, 0⟩, ⟨.nop, 5⟩]).repair
            { initial := 7, verbose := true, workers := -3 }).stdout ++ rest := by
  obtain ⟨ys, zs, -, -, hsurvey, -, -, -, hbegins⟩ :=
    repair_begins_survey (ofList [⟨.acc, 4⟩, ⟨.nop, 1⟩, ⟨.jmp, 0⟩, ⟨.nop, 5⟩])
  have hys : ((ofList [⟨.acc, 4⟩, ⟨.nop, 1⟩, ⟨.jmp, 0⟩, ⟨.nop, 5⟩]).survey {}).ending
      = .ok [⟨1, ⟨.nop, 1⟩, ⟨.jmp, 1⟩, .infiniteLoop 4⟩, ⟨2, ⟨.jmp, 0⟩, ⟨.nop, 0⟩, .halted 4⟩,
          ⟨3, ⟨.nop, 5⟩, ⟨.jmp, 5⟩, .infiniteLoop 4⟩] := by
    cbv
  obtain rfl := Except.ok.inj ((hsurvey {} fun h => by cases h).1.symm.trans hys)
  obtain ⟨r, r', hr, hr', hsame, ⟨rest, hrest⟩, hiff⟩ :=
    hbegins { initial := 7, verbose := true, workers := -3 } { verbose := true, workers := 2 }
      (by decide) (by decide) rfl rfl (by decide)
  obtain rfl := (yields_repair _ _).eq_of_ending hr
  obtain rfl := (yields_repair _ _).eq_of_ending hr'
  have hfirst : (ofList [⟨.acc, 4⟩, ⟨.nop, 1⟩, ⟨.jmp, 0⟩, ⟨.nop, 5⟩]).quietRepair (-3)
      = .repaired 2 4 2 := by cbv
  have hall : (ofList [⟨.acc, 4⟩, ⟨.nop, 1⟩, ⟨.jmp, 0⟩, ⟨.nop, 5⟩]).quietRepair 2
      = .repaired 2 4 3 := by cbv
  refine ⟨_, _, rest, hr, hr', hfirst, hall, ?_, hsame.trans hrest⟩
  rintro rfl
  rw [String.append_empty] at hrest
  rw [hfirst, hall] at hiff
  cases hiff.mp hrest.symm

end Program

end AccumulatorMachine
