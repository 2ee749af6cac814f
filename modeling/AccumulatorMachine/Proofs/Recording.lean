import AccumulatorMachine.Execution
import AccumulatorMachine.Proofs.Lines

/-!
# `AccumulatorMachine.Proofs.Recording`: what a loop counts and keeps

The loop of a run counts the turns that moved and keeps their steps if
it is asked to. Neither changes what it does: `loopFrom_eq` says that a
loop that starts with a count and some steps comes to where the run
`runFrom` comes to, with the number of its steps added to the count and
the steps put behind those that were kept.

So all ways to run a program are views of one run, `trace`:

* `trace_eq`: it is the run from the first instruction, closed by a line
  if it is verbose and by an entry of the log;
* `execute_eq`: an execution, which keeps nothing, tells its outcome;
* `executeTraced_eq`: a recording holds it, and the number that was
  counted is the number of its steps.
-/

set_option autoImplicit false

namespace AccumulatorMachine

/-- A run with more steps in front. -/
def Trace.prepend (steps : List Step) (t : Trace) : Trace :=
  { t with steps := steps ++ t.steps }

/-- Steps in front of steps. -/
theorem Trace.prepend_prepend (steps others : List Step) (t : Trace) :
    (t.prepend others).prepend steps = t.prepend (steps ++ others) := by
  simp [prepend]

/-- Where a loop comes to that goes on with a run after some turns. -/
def Trace.countedFrom (kept : Option (Array Step)) (count : Nat) (t : Trace) : LoopEnd where
  outcome := t.outcome
  count := count + t.steps.length
  kept := kept.map (· ++ t.steps.toArray)

/-- The recording of a run. -/
def Trace.recorded (size : Nat) (initial : Int) (t : Trace) : Recording where
  trace := t
  statistics := { steps := t.steps.length, programLength := size }
  initial := initial

/-- Print a step if the run is verbose. -/
def Step.tell (verbose : Bool) (step : Step) : Transcript Unit :=
  if verbose then Transcript.printIndented step.text else pure ()

namespace Program

variable {p : Program} {s t : State} {i : Instruction} {verbose : Bool}
  {kept : Option (Array Step)} {n : Nat}

/-! ### One turn -/

/-- A loop whose first turn fails does nothing. -/
theorem loopFrom_of_error {e : PositionError} (h : s.turn p = .error e) :
    p.loopFrom verbose kept n s = Transcript.fail (.position e) := by
  rw [loopFrom]
  split
  · simp_all
  · simp_all
  · simp_all

/-- A loop whose first turn ends keeps what it has. -/
theorem loopFrom_of_ended {o : Outcome} (h : s.turn p = .ok (.ended o)) :
    p.loopFrom verbose kept n s = pure ⟨o, n, kept⟩ := by
  rw [loopFrom]
  split
  · simp_all
  · simp_all
  · simp_all

/-- A step that is neither printed nor kept need not be made, since then
there is nothing to do with it. -/
theorem note_eq :
    note verbose kept n s i t
      = (Step.between n s i t).tell verbose >>= fun _ =>
          pure (kept.map (·.push (Step.between n s i t))) := by
  unfold note Step.tell
  cases verbose with
  | true => simp [Transcript.printIndented]
  | false => cases kept <;> simp

/-- A loop whose first turn moves tells the step, keeps it, counts it, and
goes on. -/
theorem loopFrom_of_moved (h : s.turn p = .ok (.moved i t)) :
    p.loopFrom verbose kept n s
      = (Step.between n s i t).tell verbose >>= fun _ =>
          p.loopFrom verbose (kept.map (·.push (Step.between n s i t))) (n + 1) t := by
  rw [loopFrom]
  split
  · simp_all
  · simp_all
  · rename_i i' t' h'
    simp only [h, Except.ok.injEq, Turn.moved.injEq] at h'
    obtain ⟨rfl, rfl⟩ := h'
    rw [note_eq, bind_assoc, pure_bind]

/-! ### The whole loop -/

/-- A trace is what a loop comes to that keeps its steps. -/
theorem runFrom_eq_map (p : Program) (verbose : Bool) (n : Nat) (s : State) :
    p.runFrom verbose n s = LoopEnd.trace <$> p.loopFrom verbose (some #[]) n s := by
  rw [runFrom, map_eq_pure_bind]

/-- A loop that has kept steps and counted turns comes to where the run
from its state comes to, with the steps of the run kept and counted in
addition. -/
theorem loopFrom_eq (p : Program) (verbose : Bool) (kept : Option (Array Step)) (n : Nat)
    (s : State) :
    p.loopFrom verbose kept n s = Trace.countedFrom kept n <$> p.runFrom verbose n s := by
  -- Every move uses up an unmarked address. On both sides the loop goes on
  -- with the step of the move kept, so what was kept must be free.
  induction hu : s.unmarked using Nat.strongRecOn generalizing kept n s with
  | ind u ih =>
      cases hturn : s.turn p with
      | error e =>
          rw [runFrom_eq_map, loopFrom_of_error hturn, loopFrom_of_error hturn]
          rfl
      | ok turn =>
          cases turn with
          | ended o =>
              rw [runFrom_eq_map, loopFrom_of_ended hturn, loopFrom_of_ended hturn, map_pure,
                map_pure]
              cases kept <;> simp [Trace.countedFrom, LoopEnd.trace]
          | moved i t =>
              have hlt : t.unmarked < u := hu ▸ State.unmarked_lt_of_turn hturn
              rw [runFrom_eq_map, loopFrom_of_moved hturn, loopFrom_of_moved hturn,
                ih _ hlt _ _ _ rfl, ih _ hlt _ _ _ rfl]
              simp only [map_bind, Functor.map_map]
              refine bind_congr fun _ => congrArg (· <$> _) (funext fun rest => ?_)
              cases kept <;> simp [Trace.countedFrom, LoopEnd.trace] <;> omega

/-- A run whose first turn fails does nothing. -/
theorem runFrom_of_error {e : PositionError} (h : s.turn p = .error e) (verbose : Bool)
    (n : Nat) : p.runFrom verbose n s = Transcript.fail (.position e) := by
  rw [runFrom_eq_map, loopFrom_of_error h]
  rfl

/-- A run whose first turn ends takes no step. -/
theorem runFrom_of_ended {o : Outcome} (h : s.turn p = .ok (.ended o)) (verbose : Bool)
    (n : Nat) : p.runFrom verbose n s = pure ⟨[], o⟩ := by
  rw [runFrom_eq_map, loopFrom_of_ended h]
  rfl

/-- A run whose first turn moves tells the step and goes on from there. -/
theorem runFrom_of_moved (h : s.turn p = .ok (.moved i t)) (verbose : Bool) (n : Nat) :
    p.runFrom verbose n s
      = (Step.between n s i t).tell verbose >>= fun _ =>
          Trace.prepend [Step.between n s i t] <$> p.runFrom verbose (n + 1) t := by
  rw [runFrom_eq_map, loopFrom_of_moved h, loopFrom_eq, map_bind]
  refine bind_congr fun _ => ?_
  rw [Functor.map_map]
  refine congrArg (· <$> _) (funext fun rest => ?_)
  simp [Trace.countedFrom, LoopEnd.trace, Trace.prepend]

/-- A quiet run tells nothing of it. -/
theorem runFrom_quiet_of_moved (h : s.turn p = .ok (.moved i t)) (n : Nat) :
    p.runFrom false n s
      = Trace.prepend [Step.between n s i t] <$> p.runFrom false (n + 1) t := by
  rw [runFrom_of_moved h]
  exact pure_bind _ _

/-- A verbose run prints the step. -/
theorem runFrom_verbose_of_moved (h : s.turn p = .ok (.moved i t)) (n : Nat) :
    p.runFrom true n s
      = Transcript.printIndented (Step.between n s i t).text >>= fun _ =>
          Trace.prepend [Step.between n s i t] <$> p.runFrom true (n + 1) t :=
  runFrom_of_moved h true n

/-! ### The ways to run a program -/

/-- A run that is closed comes to where the trace comes to, whether it
keeps steps or not. -/
theorem runLoop_eq (p : Program) (settings : Settings) (kept : Option (Array Step)) :
    p.runLoop settings kept = Trace.countedFrom kept 0 <$> p.trace settings := by
  have htrace : p.trace settings = LoopEnd.trace <$> p.runLoop settings (some #[]) := by
    simp only [trace, executeTraced, bind_assoc, pure_bind, map_eq_pure_bind]
  rw [htrace, Functor.map_map]
  simp only [runLoop, loopFrom_eq p _ kept, loopFrom_eq p _ (some #[]), bind_map_left, map_bind]
  refine bind_congr fun t => ?_
  -- The count and the outcome are those of the run on both sides.
  cases settings.verbose with
  | false => simp [Trace.countedFrom, LoopEnd.trace]
  | true => simp [Trace.countedFrom, LoopEnd.trace]

/-- The trace is the run from the first instruction, closed by a line if it
is verbose, and by an entry of the log. -/
theorem trace_eq (p : Program) (settings : Settings) :
    p.trace settings = (do
      let t ← p.runFrom settings.verbose 0 (State.initial p.size settings.initial)
      if settings.verbose then
        Transcript.printLine (← Transcript.text t.closing)
      Transcript.log (.executed t.steps.length t.outcome.record)
      return t) := by
  simp only [trace, executeTraced, runLoop, loopFrom_eq, bind_map_left, bind_assoc]
  refine bind_congr fun t => ?_
  cases settings.verbose with
  | false => simp [Trace.countedFrom, LoopEnd.trace]
  | true => simp [Trace.countedFrom, LoopEnd.trace, Trace.closing]

/-- An execution writes what the run writes and tells its outcome. -/
theorem execute_eq (p : Program) (settings : Settings) :
    p.execute settings = Trace.outcome <$> p.trace settings := by
  rw [execute, runLoop_eq, bind_map_left, map_eq_pure_bind]
  rfl

/-- A recording holds the run, and as many steps were counted as it has. -/
theorem executeTraced_eq (p : Program) (settings : Settings) :
    p.executeTraced settings
      = Trace.recorded p.size settings.initial <$> p.trace settings := by
  rw [executeTraced, runLoop_eq, bind_map_left, map_eq_pure_bind]
  refine bind_congr fun t => ?_
  simp [Trace.countedFrom, LoopEnd.trace, Trace.recorded]

end Program

end AccumulatorMachine
