import RobotLink.Clock.Driven
import RobotLink.Loopback
import RobotLink.Main
import RobotLink.Message.Describe
import RobotLink.Robot
import RobotLink.SaveState
import RobotLink.ScriptStore
import RobotLink.SerialText
import RobotLink.Settings
import RobotLink.Proofs.MessageDelivery
import RobotLink.Proofs.Connections
import RobotLink.Proofs.LinkDelivery
import RobotLink.Proofs.ServerRounds
import RobotLink.Proofs.ScriptListings
import RobotLink.Proofs.PartialDelivery
import RobotLink.Proofs.Strikes
import RobotLink.Proofs.Sweep
import RobotLink.Proofs.Schedule
import RobotLink.Proofs.StepSplitting
import RobotLink.Proofs.PayloadLanguage
import RobotLink.Proofs.ClockRuns
import RobotLink.Proofs.Resume
import RobotLink.Proofs.ClockChanges
import RobotLink.Proofs.Phase
import RobotLink.Proofs.Chronology
import RobotLink.Proofs.CarriedTicks
import RobotLink.Proofs.WallTime
import RobotLink.Proofs.Normalization
import RobotLink.Proofs.SavedLayout
import RobotLink.Proofs.ReadSchedules
import RobotLink.Proofs.FrameIsolation
import RobotLink.Proofs.Routing
import RobotLink.Proofs.ServerTurns
import RobotLink.Proofs.Lifecycle
import RobotLink.Proofs.SaveFiles
import RobotLink.Proofs.Restoring
import RobotLink.Proofs.StepArithmetic
import RobotLink.Proofs.ReportAccounts
import RobotLink.Proofs.FatalLatch
import RobotLink.Proofs.WriteConservation
import RobotLink.Proofs.TickNumbers
import RobotLink.Proofs.Rebasing
import RobotLink.Proofs.Truncation
import RobotLink.Proofs.HandlerOrder
import RobotLink.Proofs.Restarts
import RobotLink.Proofs.Handles
import RobotLink.Proofs.SampleWindows
import RobotLink.Proofs.TimerRegistry
import RobotLink.Proofs.SerialLines
import RobotLink.Proofs.SerialBatches
import RobotLink.Proofs.ScriptHistory
import RobotLink.Proofs.CallbackViews
import RobotLink.Proofs.RobotSteps
import RobotLink.Proofs.RobotRuns
import RobotLink.Proofs.Publications
import RobotLink.Proofs.GuardedReads
import RobotLink.Proofs.ValueSequences
