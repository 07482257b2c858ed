import RoundScheduler.Config.Json
import RoundScheduler.Schedule.Json
import RoundScheduler.Summary.Json
import RoundScheduler.Table
import RoundScheduler.State.Round
import RoundScheduler.State.Turn
import RoundScheduler.State.Lock
import RoundScheduler.State.Admission
import RoundScheduler.Operation
import RoundScheduler.System
import RoundScheduler.Command
import RoundScheduler.Session
import RoundScheduler.Scenario
import RoundScheduler.Batch
import RoundScheduler.Config.Flags
import RoundScheduler.Main
import RoundScheduler.Proofs.State.Lookup
import RoundScheduler.Proofs.State.Roster
import RoundScheduler.Proofs.State.Seating
import RoundScheduler.Proofs.State.Queues
import RoundScheduler.Proofs.Stretch
import RoundScheduler.Proofs.Transition
import RoundScheduler.Proofs.State.Change
import RoundScheduler.Proofs.Places
import RoundScheduler.Proofs.Effects
import RoundScheduler.Proofs.Rounds
import RoundScheduler.Proofs.Fillers
import RoundScheduler.Proofs.Invariant
import RoundScheduler.Proofs.Progress
import RoundScheduler.Proofs.MutualExclusion
import RoundScheduler.Proofs.PassOrder
import RoundScheduler.Proofs.State.Chronicle
import RoundScheduler.Proofs.TurnOrder
import RoundScheduler.Proofs.Determinism.Agenda
import RoundScheduler.Proofs.Determinism.Desk
import RoundScheduler.Proofs.Determinism.Course
import RoundScheduler.Proofs.Determinism.Diamond
import RoundScheduler.Proofs.Determinism.Mirror
import RoundScheduler.Proofs.Determinism.Following
import RoundScheduler.Proofs.Determinism.Runs
import RoundScheduler.Proofs.Determinism
import RoundScheduler.Proofs.Determinism.SameRound
import RoundScheduler.Proofs.Starvation
import RoundScheduler.Proofs.Reconfiguration
import RoundScheduler.Proofs.Faultlessness
import RoundScheduler.Proofs.Formation
import RoundScheduler.Proofs.LockOrder
import RoundScheduler.Proofs.Admission
import RoundScheduler.Proofs.Backpressure
import RoundScheduler.Proofs.LifeCycle
import RoundScheduler.Proofs.Workload.Plan
import RoundScheduler.Proofs.Workload.Contention
import RoundScheduler.Proofs.Workload.Groups
import RoundScheduler.Proofs.Workload.Tracking
import RoundScheduler.Proofs.Workload.News
import RoundScheduler.Proofs.Sessions
import RoundScheduler.Proofs.Workload.Runners
import RoundScheduler.Proofs.Workload
import RoundScheduler.Proofs.Livelock.Ownership
import RoundScheduler.Proofs.Livelock.Discipline
import RoundScheduler.Proofs.Livelock.Account
import RoundScheduler.Proofs.Livelock.Rounds
import RoundScheduler.Proofs.Livelock.Potential
import RoundScheduler.Proofs.Livelock
import RoundScheduler.Proofs.FillRound.Docket
import RoundScheduler.Proofs.FillRound.Mimicry
import RoundScheduler.Proofs.FillRound.Counts
import RoundScheduler.Proofs.FillRound
import RoundScheduler.Proofs.LockQueues
import RoundScheduler.Proofs.Annals
import RoundScheduler.Proofs.Json.ReadBack
import RoundScheduler.Proofs.JsonRoundTrip
import RoundScheduler.Proofs.Spin.Stay
import RoundScheduler.Proofs.Spin.Fresh
import RoundScheduler.Proofs.Spin.Settling
import RoundScheduler.Proofs.Spin.Treadmill
import RoundScheduler.Proofs.Spin
import RoundScheduler.Proofs.Closing
import RoundScheduler.Proofs.Requests
import RoundScheduler.Proofs.Rejections
import RoundScheduler.Proofs.Supply
import RoundScheduler.Proofs.Numeral
import RoundScheduler.Proofs.CommandLine.Spelling
import RoundScheduler.Proofs.ConfigFlags
import RoundScheduler.Proofs.ProgressFlags
