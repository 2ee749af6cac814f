import AccumulatorMachine.Main
import AccumulatorMachine.Proofs.PlainMachine
import AccumulatorMachine.Proofs.Turn
import AccumulatorMachine.Proofs.Run
import AccumulatorMachine.Proofs.LoopDetection
import AccumulatorMachine.Proofs.Swap
import AccumulatorMachine.Proofs.Search
import AccumulatorMachine.Proofs.Detour
import AccumulatorMachine.Proofs.Pool
import AccumulatorMachine.Proofs.Trace
import AccumulatorMachine.Proofs.LoopHead
import AccumulatorMachine.Proofs.Verbose
import AccumulatorMachine.Proofs.Effect
import AccumulatorMachine.Proofs.Shift
import AccumulatorMachine.Proofs.Numeral
import AccumulatorMachine.Proofs.Column
import AccumulatorMachine.Proofs.Mnemonic
import AccumulatorMachine.Proofs.LineGrammar
import AccumulatorMachine.Proofs.LineEnd
import AccumulatorMachine.Proofs.FirstFault
import AccumulatorMachine.Proofs.JoinedListing
import AccumulatorMachine.Proofs.RoundTrip
import AccumulatorMachine.Proofs.Shown
import AccumulatorMachine.Proofs.Printing
import AccumulatorMachine.Proofs.Budget
import AccumulatorMachine.Proofs.PlaceFromEnd
import AccumulatorMachine.Proofs.Stages
import AccumulatorMachine.Proofs.Choice
import AccumulatorMachine.Proofs.ExitStatus
import AccumulatorMachine.Proofs.Concatenation
import AccumulatorMachine.Proofs.FailingJump
import AccumulatorMachine.Proofs.SurveyPrefix
import AccumulatorMachine.Proofs.VerboseRun
import AccumulatorMachine.Proofs.CanonicalListing
import AccumulatorMachine.Proofs.SwapLaws
import AccumulatorMachine.Proofs.LineTranslation
import AccumulatorMachine.Proofs.EmptyRun
import AccumulatorMachine.Proofs.Silent
import AccumulatorMachine.Proofs.VerboseCall
import AccumulatorMachine.Proofs.InPlace
import AccumulatorMachine.Proofs.LineCount
import AccumulatorMachine.Proofs.Tally
import AccumulatorMachine.Proofs.StageTimes
