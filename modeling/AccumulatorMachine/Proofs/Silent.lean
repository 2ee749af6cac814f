import AccumulatorMachine.Proofs.Printing
import AccumulatorMachine.Proofs.Readings

/-!
# `AccumulatorMachine.Proofs.Silent`: computations that print nothing

A computation that is not verbose writes into the log alone. `Silent`
says so of a computation, whatever its value is and whether it fails or
not, so that silence goes through sequences without a look at the values
(`Silent.bind`).

Attempts are silent with any settings. Runs, surveys and searches are
silent if they are not verbose, and so are the runs of a whole listing,
from a number (`silent_run`) or without one (`silent_runEmpty`).
-/

set_option autoImplicit false

namespace AccumulatorMachine

variable {α β : Type}

namespace Transcript

/-- Whether a computation prints nothing. -/
def Silent (x : Transcript α) : Prop := x.printed = []

namespace Silent

/-- A value prints nothing. -/
theorem pure (a : α) : (pure a : Transcript α).Silent := rfl

/-- Nor does a failure. -/
theorem fail (e : Failure) : (fail e : Transcript α).Silent := rfl

/-- An entry for the log is not printed. -/
theorem log (entry : LogEntry) : (log entry).Silent := rfl

/-- A result that is taken over prints nothing, whether it is a value or an
error. -/
theorem ofExcept {ε : Type} (failure : ε → Failure) (t : Except ε α) :
    (ofExcept failure t).Silent := by
  cases t with
  | ok a => exact .pure a
  | error e => exact .fail _

/-- In a sequence of silent computations nothing is printed, whichever of
them is the last. -/
theorem bind {x : Transcript α} {f : α → Transcript β} (hx : x.Silent)
    (hf : ∀ a, (f a).Silent) : (x >>= f).Silent := by
  cases h : x.ending with
  | ok a =>
      show (x >>= f).printed = []
      rw [printed_bind h, hx, hf a]
      rfl
  | error e =>
      rw [bind_of_error h]
      exact hx

/-- What is made of the value prints nothing. -/
theorem map {x : Transcript α} (hx : x.Silent) (f : α → β) : (f <$> x).Silent := hx

/-- A row of silent computations is silent. The one that fails, if one does,
is the last of them. -/
theorem mapM {f : α → Transcript β} (hf : ∀ a, (f a).Silent) (l : List α) :
    (l.mapM f).Silent := by
  induction l with
  | nil => exact .pure []
  | cons a l ih =>
      rw [List.mapM_cons]
      exact (hf a).bind fun b => ih.bind fun bs => .pure (b :: bs)

end Silent

end Transcript

open Transcript (Silent)

namespace Program

variable {settings : Settings}

/-- Reading a listing writes into the log. -/
theorem silent_load (source : String) : (load source).Silent :=
  (Silent.ofExcept _ _).bind fun p => (Silent.log _).bind fun _ => .pure p

/-! ### Attempts and runs -/

/-- A quiet run tells its outcome to the log alone. -/
theorem silent_trace (p : Program) (h : settings.verbose = false) : (p.trace settings).Silent := by
  obtain ⟨initial, verbose, workers⟩ := settings
  cases h
  rw [trace_quiet]
  rfl

/-- So is an execution. -/
theorem silent_execute (p : Program) (h : settings.verbose = false) :
    (p.execute settings).Silent := by
  rw [execute_eq]
  exact (p.silent_trace h).map _

/-- An attempt runs its program quietly. -/
theorem silent_attempt (p : Program) (index : Int) (settings : Settings) :
    (p.attempt index settings).Silent :=
  (Silent.ofExcept _ _).bind fun changed =>
    (changed.silent_execute rfl).bind fun _ =>
      (Silent.log _).bind fun _ => (Silent.ofExcept _ _).bind fun _ =>
        (Silent.ofExcept _ _).bind fun _ => .pure _

/-! ### Surveys and searches -/

/-- Attempts are silent, and only a verbose survey shows them. -/
theorem silent_survey (p : Program) (h : settings.verbose = false) :
    (p.survey settings).Silent := by
  rw [survey, h]
  exact (Silent.mapM (fun i => p.silent_attempt _ _) _).bind fun attempts => .pure attempts

/-- The same for a search that stops at the first success. -/
theorem silent_searchFrom (p : Program) (h : settings.verbose = false) (made : Nat) (l : List Nat) :
    (p.searchFrom settings made l).Silent := by
  induction l generalizing made with
  | nil => exact .pure _
  | cons i l ih =>
      rw [searchFrom, h]
      refine (p.silent_attempt i settings).bind fun x => ?_
      simp only [Bool.false_eq_true, if_false]
      cases x.success? with
      | some found => exact .pure _
      | none => exact ih (made + 1)

/-- A search is silent with workers and without: it surveys the program or
goes along the candidates. -/
theorem silent_repair (p : Program) (h : settings.verbose = false) :
    (p.repair settings).Silent := by
  unfold repair
  split
  · exact ((p.silent_survey h).map _).bind fun _ => (Silent.log _).bind fun _ => .pure _
  · exact (p.silent_searchFrom h 0 _).bind fun _ => (Silent.log _).bind fun _ => .pure _

/-- A run without a number takes its steps from the quiet run. -/
theorem silent_executeEmpty (p : Program) : (p.executeEmpty false).Silent := by
  rw [executeEmpty, runFrom_initial, pure_bind]
  simp only [Bool.false_eq_true, if_false]
  split
  · exact (Silent.fail _).bind fun _ => (Silent.log _).bind fun _ => .pure _
  · exact (Silent.log _).bind fun _ => .pure _

end Program

namespace Pipeline

variable {settings : Settings}

/-- The heading of a search is printed by a verbose run only. -/
theorem silent_search (p : Program) (h : settings.verbose = false) :
    (search p settings).Silent := by
  rw [search, h]
  exact p.silent_repair h

/-- What comes after the run of the program is silent, whether or not there
is a search. -/
theorem silent_finish (source : String) (h : settings.verbose = false) (wanted : Bool)
    (clock : Clock) (p : Program) (steps : Nat) (outcome : OutcomeRecord) :
    (finish source settings wanted clock p steps outcome).Silent := by
  simp only [finish, h, Bool.false_eq_true, if_false]
  refine (Silent.log _).bind fun _ => ?_
  split
  · exact ((silent_search p h).map some).bind fun _ => .pure _
  · exact (Silent.pure none).bind fun _ => .pure _

/-- A run of a listing that is not verbose prints nothing. -/
theorem silent_run (source : String) (h : settings.verbose = false) (wanted : Bool)
    (clock : Clock) : (run source settings wanted clock).Silent := by
  rw [run_eq, h]
  exact (Program.silent_load source).bind fun p => (p.silent_trace h).bind fun _ =>
    (silent_finish source h wanted clock p _ _).bind fun _ => .pure _

/-- Neither does one without a number. -/
theorem silent_runEmpty (source : String) (h : settings.verbose = false) (wanted : Bool)
    (clock : Clock) : (runEmpty source settings wanted clock).Silent := by
  rw [runEmpty_eq, h]
  exact (Program.silent_load source).bind fun p => p.silent_executeEmpty.bind fun _ =>
    (silent_finish source h wanted clock p _ _).bind fun _ => .pure _

end Pipeline

end AccumulatorMachine
