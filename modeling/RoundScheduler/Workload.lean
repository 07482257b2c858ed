import RoundScheduler.Session

/-!
# The lock workload

Units that all enter critical sections of one lock. Their number is rounded up to whole rounds,
because a round would wait for ever for threads that never come.
-/

namespace RoundScheduler

/-- Units that contend for one lock. -/
structure Workload where
  /-- The units asked for. -/
  units : Nat
  /-- The critical sections of each unit. -/
  criticalSections : Nat
  deriving DecidableEq

namespace Workload

/-- The rounds of some primaries that it takes to begin every unit. -/
def groups (w : Workload) (primaries : Nat) : Nat :=
  (w.units + (primaries - 1)) / primaries

/-- The units that are submitted, so that they fill whole rounds of some primaries. -/
def paddedUnits (w : Workload) (primaries : Nat) : Except Word.Overflow Nat :=
  Word.mul? (w.groups primaries) primaries

/-- What each unit does with the lock `l`. -/
def script (w : Workload) (l : LockId) : Script :=
  { commands :=
      (List.replicate w.criticalSections
        [Command.operation (.lock l), Command.operation (.unlock l)]).flatten }

/-- The submissions of `n` units, numbered from `first`, each with its work. -/
def submissions (first n : Nat) (work : Nat → Work) : List (Nat × Command) :=
  (List.range n).map fun i => (first + i, .operation (.submit (work i)))

/-- The session in which a client that has nothing else to do is about to submit some units of the
workload, which contend for a new lock. Without units there is no script to write, however long it
would be. -/
def launch (w : Workload) (s : Session) (client units : Nat) : Session :=
  let l := s.system.state.nextLock
  let s := s.move .newLock
  if units = 0 then s
  else
    { s with scripts := s.scripts ++ List.replicate units (w.script l) }.addClient client
      (submissions 0 units fun i => .scripted (s.scripts.length + i))

/-- Runs the workload for rounds of some primaries until nobody can go on; `none` if somebody always
can. -/
def run (w : Workload) (s : Session) (client primaries : Nat) :
    Except Word.Overflow (Option Session) :=
  (w.paddedUnits primaries).map fun units => (w.launch s client units).settle?

end Workload

/-- Whether every thread that was listed retired and nobody waits to be listed. -/
def Session.isQuiescent (s : Session) : Bool :=
  s.system.state.scheduled = s.system.state.terminated && s.system.state.admissionQueue.isEmpty

end RoundScheduler
