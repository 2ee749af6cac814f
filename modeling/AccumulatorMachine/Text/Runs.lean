/-!
# `AccumulatorMachine.Text.Runs`: lists of runs built from the right

Lines and columns are both lists of runs of characters. Each is read
by structural recursion from the right end of the text, and a
character that belongs to the run after it is put in front of that
run by `extendHead`.
-/

set_option autoImplicit false

namespace AccumulatorMachine.Text

/-- Put `a` in front of the first run, or open a run if there is none. -/
def extendHead {α : Type} (a : α) : List (List α) → List (List α)
  | [] => [[a]]
  | run :: rest => (a :: run) :: rest

/-- After an extension there is a first run, and it begins with `a`. -/
theorem extendHead_ne_nil {α : Type} (a : α) (runs : List (List α)) :
    extendHead a runs ≠ [] := by
  cases runs <;> simp [extendHead]

end AccumulatorMachine.Text
