import BrokerParrot.Proof.KindCaps
import BrokerParrot.Proof.Outbox
import BrokerParrot.Proof.StallConfirm
import BrokerParrot.Proof.ParkedBox
import BrokerParrot.Proof.SilentWorkers
import BrokerParrot.Proof.SwitchDeadline
import BrokerParrot.Proof.QuarantineBackoff
import BrokerParrot.Proof.RawAgreement
import BrokerParrot.Proof.LeaseCrash
import BrokerParrot.Proof.WarmCache
import BrokerParrot.Proof.CardSlots
import BrokerParrot.Proof.Redelivery
import BrokerParrot.Proof.ConcurrentExpansion
import BrokerParrot.Proof.InputResume
import BrokerParrot.Proof.Recoveries
import BrokerParrot.Proof.StartRun
import BrokerParrot.Proof.PendingFailures
import BrokerParrot.Proof.SqliteParity
import BrokerParrot.Proof.DownloadLane
import BrokerParrot.Proof.RetryBudget
import BrokerParrot.Proof.LateInputs
import BrokerParrot.Proof.StarvationView
import BrokerParrot.Proof.FlagSweeps
import BrokerParrot.Proof.ControlPlanes
import BrokerParrot.Proof.StampTruth
import BrokerParrot.Proof.PatchFrame
import BrokerParrot.Proof.PatchPaths
import BrokerParrot.Proof.ModelSwitch
import BrokerParrot.Proof.WindowChange
import BrokerParrot.Proof.LostRace
import BrokerParrot.Proof.GrownWindow
import BrokerParrot.Proof.VllmPlan
import BrokerParrot.Proof.Enforcement
import BrokerParrot.Proof.LaneProcesses
import BrokerParrot.Proof.ServedModel
import BrokerParrot.Proof.WindowPlan
import BrokerParrot.Proof.SameModel
import BrokerParrot.Proof.FrozenHistory
import BrokerParrot.Proof.Victims
import BrokerParrot.Proof.WatchdogRelease
import BrokerParrot.Proof.CpuLaneWidth
import BrokerParrot.Proof.LaneBudget
import BrokerParrot.Proof.ScrubbedText
import BrokerParrot.Proof.TickerInstants
import BrokerParrot.Proof.ReadyFixpoint
import BrokerParrot.Proof.DeclaredRouting
