import AccumulatorMachine.Proofs.Printing

/-!
# `AccumulatorMachine.Proofs.VerboseRun`: a verbose run observes the quiet one

A verbose run takes the turns of the quiet one and prints each step when
it is taken. So it is the quiet run, then a row of lines for its steps,
then the line that closes it (`trace_verbose_eq`), although the printing
goes on in between the turns. What can be different from the quiet run is
the ending alone, and only because of the lines: an integer in one of them
can be too long to be written.

`verbose_run_observes` tells all that a verbose run writes. If every
integer that it shows can be written, it writes the lines and then what
the quiet run writes, and has the value of the quiet run. Otherwise it
writes the lines of the steps before the first one with an integer that
is too long, and fails for the digits. That is all steps if the integer
is in none of them; then it is the accumulator of a program without
instructions, or the number of steps.
-/

set_option autoImplicit false

namespace AccumulatorMachine

open Numeral (AllShort Short)
open Transcript (indented printIndented)

/-- The line that closes a verbose run, if it can be written. -/
theorem Trace.closing_of_short {t : Trace} {result : String} (hresult : t.outcome.text = .ok result)
    (hshort : Short t.steps.length) :
    t.closing = .ok ("  => " ++ result ++ " (" ++ Numeral.digits t.steps.length ++ " steps)") := by
  have hplain : Numeral.plain t.steps.length = .ok (Numeral.digits t.steps.length) := by
    rw [Numeral.plain, if_pos (Numeral.fits_iff.mpr hshort)]
    rfl
  have htext : t.outcome.record.text = .ok result := hresult
  rw [closing, closingOf, htext, hplain]
  rfl

namespace Program

variable {p : Program}

/-- A verbose run is the quiet one with its steps printed and closed. -/
theorem trace_verbose_eq (p : Program) (a workers : Int) :
    p.trace { initial := a, verbose := true, workers }
      = (forM (p.quietTrace a).steps fun step => printIndented step.text) >>= fun _ =>
          Transcript.text (p.quietTrace a).closing >>= fun line =>
            Transcript.printLine line >>= fun _ =>
              Transcript.log (.executed (p.quietTrace a).steps.length (p.outcome a).record)
                >>= fun _ => pure (p.quietTrace a) := by
  rw [trace_eq]
  simp only [if_true]
  rw [runFrom_verbose_eq (p.ending_runFrom_initial a), bind_assoc]
  rfl

/-- A verbose run that shows nothing too long writes a line for each step
and the closing line. -/
theorem trace_verbose_of_allShort {a : Int} (h : AllShort (p.quietTrace a).shown)
    (workers : Int) :
    ∃ lines result, (p.quietTrace a).steps.mapM Step.text = .ok lines
      ∧ (p.outcome a).text = .ok result
      ∧ p.trace { initial := a, verbose := true, workers }
        = ⟨lines.map indented
            ++ [.printed ("  => " ++ result ++ " ("
                  ++ Numeral.digits (p.quietTrace a).steps.length ++ " steps)" ++ "\n"),
                .logged (.executed (p.quietTrace a).steps.length (p.outcome a).record)],
          .ok (p.quietTrace a)⟩ := by
  rw [Trace.shown, Numeral.allShort_append] at h
  obtain ⟨hsteps, hclosing⟩ := h
  rw [Numeral.allShort_cons, Numeral.allShort_cons] at hclosing
  obtain ⟨hnumber, hlength, -⟩ := hclosing
  -- The closing line has two integers, of the outcome and of the steps.
  obtain ⟨result, hresult⟩ := (Shows.text_outcome (p.outcome a)).written
    (Numeral.allShort_cons.mpr ⟨hnumber, Numeral.allShort_nil⟩)
  obtain ⟨lines, hlines⟩ := Transcript.exists_lines Shows.text_step hsteps
  refine ⟨lines, result, hlines, hresult, ?_⟩
  rw [trace_verbose_eq, Transcript.forM_printIndented_of_allShort Shows.text_step hsteps hlines,
    Transcript.bind_of_ok rfl, Trace.closing_of_short hresult hlength]
  rfl

/-- A verbose run that shows something too long writes the lines of the
steps before the first one that does, and fails. -/
theorem trace_verbose_of_not_allShort {a : Int} (h : ¬AllShort (p.quietTrace a).shown)
    (workers : Int) :
    ∃ lines, ((p.quietTrace a).steps.takeWhile fun s => AllShort s.shown).mapM Step.text
        = .ok lines
      ∧ p.trace { initial := a, verbose := true, workers }
        = ⟨lines.map indented, .error (.numeral .tooLarge)⟩ := by
  obtain ⟨lines, hlines, hprint⟩ :=
    Transcript.forM_printIndented Shows.text_step (p.quietTrace a).steps
  refine ⟨lines, hlines, ?_⟩
  rw [trace_verbose_eq, hprint]
  rcases Numeral.not_allShort_append_iff.mp h with hsteps | ⟨hsteps, hclosing⟩
  · rw [if_neg hsteps, Transcript.bind_of_error rfl]
  · -- All steps have a line, and the closing line is refused.
    rw [if_pos hsteps, Transcript.bind_of_ok rfl,
      (Shows.closing (p.quietTrace a)).refused hclosing]
    show Transcript.mk (lines.map indented ++ []) _ = _
    rw [List.append_nil]
    rfl

/-- Take the trace `t` of the quiet run. If all integers in its steps and
its outcome, and the number of its steps, can be written, then a verbose
run writes a line for each step and the closing line, and after that the
log entry of the quiet run, and has the value of the quiet run. If one of
them is too long, a verbose run writes the lines of the steps before the
first one with such an integer and fails for its digits. An execution
writes and fails alike. -/
theorem verbose_run_observes (p : Program) (a workers : Int) :
    ∃ t, p.trace { initial := a, workers }
        = ⟨[.logged (.executed t.steps.length t.outcome.record)], .ok t⟩
      ∧ p.execute { initial := a, workers }
        = ⟨[.logged (.executed t.steps.length t.outcome.record)], .ok t.outcome⟩
      ∧ (AllShort t.shown → ∃ lines result entries,
          t.steps.mapM Step.text = .ok lines ∧ t.outcome.text = .ok result
          ∧ entries = (lines.map fun line => .printed ("  " ++ line ++ "\n"))
            ++ [.printed ("  => " ++ result ++ " (" ++ Numeral.digits t.steps.length
                  ++ " steps)" ++ "\n"),
                .logged (.executed t.steps.length t.outcome.record)]
          ∧ p.trace { initial := a, verbose := true, workers } = ⟨entries, .ok t⟩
          ∧ p.execute { initial := a, verbose := true, workers } = ⟨entries, .ok t.outcome⟩)
      ∧ (¬AllShort t.shown → ∃ lines entries,
          (t.steps.takeWhile fun s => AllShort s.shown).mapM Step.text = .ok lines
          ∧ entries = (lines.map fun line => .printed ("  " ++ line ++ "\n"))
          ∧ p.trace { initial := a, verbose := true, workers }
            = ⟨entries, .error (.numeral .tooLarge)⟩
          ∧ p.execute { initial := a, verbose := true, workers }
            = ⟨entries, .error (.numeral .tooLarge)⟩) := by
  refine ⟨p.quietTrace a, p.trace_quiet a workers, p.execute_quiet a workers, ?_, ?_⟩
  · intro hshort
    obtain ⟨lines, result, hlines, hresult, htrace⟩ := trace_verbose_of_allShort hshort workers
    refine ⟨lines, result, _, hlines, hresult, rfl, htrace, ?_⟩
    rw [execute_eq, htrace]
    rfl
  · intro hlong
    obtain ⟨lines, hlines, htrace⟩ := trace_verbose_of_not_allShort hlong workers
    refine ⟨lines, _, hlines, rfl, htrace, ?_⟩
    rw [execute_eq, htrace]
    rfl

/-- From an accumulator of as many nines as there may be digits, the
second step of this program makes it too long and the third one makes it
short again. The quiet run halts; the verbose one fails and has printed
the first step alone. -/
theorem verbose_run_observes_demonstration :
    ∃ a, Short a ∧ ¬Short (a + 1)
      ∧ ((ofList [⟨.nop, 7⟩, ⟨.acc, 1⟩, ⟨.acc, -1⟩]).execute
          { initial := a, workers := 0 }).ending = .ok (.halted a)
      ∧ ((ofList [⟨.nop, 7⟩, ⟨.acc, 1⟩, ⟨.acc, -1⟩]).execute
          { initial := a, verbose := true, workers := 0 }).ending = .error (.numeral .tooLarge)
      ∧ ((ofList [⟨.nop, 7⟩, ⟨.acc, 1⟩, ⟨.acc, -1⟩]).execute
          { initial := a, verbose := true, workers := 0 }).printed.length = 1 := by
  have hpos := Numeral.bound_pos
  have hshort : Short ((Numeral.bound - 1 : Nat) : Int) := Numeral.short_natCast_iff.mpr (by omega)
  have hlong : ¬Short (((Numeral.bound - 1 : Nat) : Int) + 1) := by
    rw [show ((Numeral.bound - 1 : Nat) : Int) + 1 = (Numeral.bound : Nat) by omega,
      Numeral.short_natCast_iff]
    exact Nat.lt_irrefl _
  generalize ((Numeral.bound - 1 : Nat) : Int) = a at hshort hlong
  have htrace : ((ofList [⟨.nop, 7⟩, ⟨.acc, 1⟩, ⟨.acc, -1⟩]).trace
        { initial := a, workers := 0 }).ending
      = .ok ⟨[⟨0, 0, ⟨.nop, 7⟩, a, a + 0, 1⟩, ⟨1, 1, ⟨.acc, 1⟩, a + 0, a + 0 + 1, 2⟩,
          ⟨2, 2, ⟨.acc, -1⟩, a + 0 + 1, a + 0 + 1 + -1, 3⟩], .halted (a + 0 + 1 + -1)⟩ := by
    cbv
  simp only [Int.add_zero, show a + 1 + -1 = a by omega] at htrace
  obtain ⟨t, ht, hexecute, -, hfails⟩ :=
    verbose_run_observes (ofList [⟨.nop, 7⟩, ⟨.acc, 1⟩, ⟨.acc, -1⟩]) a 0
  rw [ht] at htrace
  cases htrace
  have hfirst : AllShort (Step.shown ⟨0, 0, ⟨.nop, 7⟩, a, a, 1⟩) := by
    simp only [Step.shown, Numeral.allShort_cons, Numeral.allShort_nil, hshort]
    decide
  have hsecond : ¬AllShort (Step.shown ⟨1, 1, ⟨.acc, 1⟩, a, a + 1, 2⟩) := fun h =>
    hlong (h (a + 1) (by simp [Step.shown]))
  obtain ⟨lines, entries, hlines, rfl, -, hverbose⟩ := hfails fun h =>
    hsecond fun n hn => h n (List.mem_append_left _ (List.mem_flatMap.mpr ⟨_, by simp, hn⟩))
  simp only [List.takeWhile_cons, hfirst, hsecond, decide_true, decide_false, if_true,
    Bool.false_eq_true, if_false] at hlines
  obtain ⟨line, hline⟩ := (Shows.text_step ⟨0, 0, ⟨.nop, 7⟩, a, a, 1⟩).written hfirst
  have hone : lines = [line] := by
    rw [List.mapM_cons, hline] at hlines
    exact (Except.ok.inj hlines).symm
  refine ⟨a, hshort, hlong, by rw [hexecute], by rw [hverbose], ?_⟩
  rw [hverbose, hone]
  rfl

end Program

end AccumulatorMachine
