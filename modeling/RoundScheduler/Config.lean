import RoundScheduler.Error
import RoundScheduler.Text.Quoted

/-!
# Configuration of a scheduler

The numbers of primaries and steps only seed the staged configuration: they take effect when the
first round starts, exactly as a request for them would.
-/

namespace RoundScheduler

/-- The configuration of one scheduler; the defaults are those of an empty command line. -/
structure Config where
  /-- The number of primaries of every round, until reconfigured. -/
  primaries : Nat := 1
  /-- The ordered steps of each primary per round, until reconfigured. -/
  stepsPerPrimary : Nat := 1
  /-- The listed threads tolerated per primary before submissions block. -/
  admissionFactor : Nat := 2
  /-- The listed threads tolerated on top of that. -/
  admissionSlack : Nat := 50
  /-- Whether the schedule can be asked for. -/
  recordSchedule : Bool := false
  /-- What the name of every worker starts with. -/
  threadNamePrefix : String := "uds-worker"
  deriving DecidableEq, Inhabited

namespace Config

/-- The configuration of an empty command line. -/
def standard : Config := {}

/-- Refuses configurations whose first round would be empty. -/
def validate (c : Config) : Except EmptyRound Unit :=
  EmptyRound.check c.primaries c.stepsPerPrimary

/-- The length of the thread list above which submissions block, for a number of live primaries. -/
def admissionBound (c : Config) (livePrimaries : Nat) : Nat :=
  Word.satAdd (Word.satMul c.admissionFactor livePrimaries) c.admissionSlack

/-- Every number of the configuration is a word. -/
structure Fits (c : Config) : Prop where
  /-- The number of primaries is a word. -/
  primaries : Word.Fits c.primaries
  /-- The number of steps is a word. -/
  stepsPerPrimary : Word.Fits c.stepsPerPrimary
  /-- The admission factor is a word. -/
  admissionFactor : Word.Fits c.admissionFactor
  /-- The admission slack is a word. -/
  admissionSlack : Word.Fits c.admissionSlack

/-- The name of the worker of a thread. -/
def workerName (c : Config) (t : ThreadId) : String :=
  c.threadNamePrefix ++ "-" ++ toString t.raw

/-- Whether workers can be named: the name of a worker must not hold the null character. -/
def namesWorkers (c : Config) : Bool := !c.threadNamePrefix.toList.contains (Char.ofNat 0)

/-- The form in dumps, with the names of the fields. -/
def debug (c : Config) : String :=
  s!"Config \x7b primaries: {c.primaries}, steps_per_primary: {c.stepsPerPrimary}, " ++
  s!"admission_factor: {c.admissionFactor}, admission_slack: {c.admissionSlack}, " ++
  s!"record_schedule: {c.recordSchedule}, " ++
  s!"thread_name_prefix: {Text.quoted c.threadNamePrefix} \x7d"

end Config

end RoundScheduler
