import AccumulatorMachine.Numeral
import AccumulatorMachine.Text.Aligned
import AccumulatorMachine.Time

/-!
# `AccumulatorMachine.Statistics`: sizes and times of the stages of a run

A listing is read, its program is run, and if need be repaired. The
statistics tell the size of the listing and of what each stage gave,
and how long each stage took, in ticks. `Statistics.report` sets them
out in a table, with times in milliseconds to one decimal place.
-/

set_option autoImplicit false

namespace AccumulatorMachine

/-- Sizes and times of one run, all `0` unless told otherwise. -/
structure Statistics where
  sourceBytes : Int := 0
  sourceLines : Int := 0
  parseTicks : Int := 0
  executionTicks : Int := 0
  repairTicks : Int := 0
  totalTicks : Int := 0
  instructionCount : Int := 0
  executionSteps : Int := 0
  repairAttempts : Int := 0
deriving DecidableEq, Repr

namespace Statistics

open Text

/-- The widths of the columns of the table: stage, time, output. -/
def widths : Nat × Nat × Nat := (20, 10, 30)

/-- A time in milliseconds. -/
def timeText (ticks : Int) : String :=
  alignRight 8 (millisecondsText ticks) ++ "ms"

/-- A row of the table. -/
def row (stage time output : String) : String :=
  "  " ++ alignLeft widths.1 stage ++ " " ++ alignRight widths.2.1 time ++ "  "
    ++ alignRight widths.2.2 output

/-- A row of dashes. -/
def rule : String :=
  let dashes (width : Nat) : String := String.ofList (List.replicate width '─')
  row (dashes widths.1) (dashes widths.2.1) (dashes widths.2.2)

/-- The row of a stage that gave `size` things of a kind. -/
def stageRow (stage : String) (ticks size : Int) (kind : String) :
    Except NumeralError String := do
  return row stage (timeText ticks) ((← Numeral.plain size) ++ " " ++ kind)

/-- The row of the whole run, which has no output. -/
def totalRow (ticks : Int) : String := "  " ++ alignLeft widths.1 "Total" ++ " " ++ timeText ticks

/-- The table of a run; no line feed after the last line. -/
def report (s : Statistics) : Except NumeralError String := do
  let size := "  Source: " ++ (← Numeral.plain s.sourceLines) ++ " lines, "
    ++ (← Numeral.plain s.sourceBytes) ++ " bytes"
  let parse ← stageRow "Parse" s.parseTicks s.instructionCount "instructions"
  let execution ← stageRow "Execute (VM)" s.executionTicks s.executionSteps "steps"
  let repair ← stageRow "Repair search" s.repairTicks s.repairAttempts "attempts"
  return "\n".intercalate
    ["═══ Pipeline Statistics ═══", size, "", row "Stage" "Time" "Output", rule,
     parse, execution, repair, rule, totalRow s.totalTicks]

end Statistics

end AccumulatorMachine
