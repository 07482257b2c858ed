import RoundScheduler.Identifier

/-!
# Schedules

A schedule is the sequence of decisions that a scheduler took, in the order in which they were
committed. Two runs, or two replicas, are compared by projections of it: the turns, the starts of
rounds, the grants of each lock. The place of a hand-off among the other events is no such
projection, because releasing a lock is not an ordered step.
-/

namespace RoundScheduler

/-- A decision of the scheduler. -/
inductive Event where
  /-- A round was filled; the primaries are indexed by slot. -/
  | roundStarted (round : Nat) (primaries : List ThreadId) (order : List Slot)
  /-- A primary took the next step of the total order. -/
  | turn (round : Nat) (thread : ThreadId) (slot : Slot)
  /-- A lock got a new owner, from its queue or at once. -/
  | lockAcquired (round : Nat) (lock : LockId) (thread : ThreadId) (queued : Bool)
  /-- A new configuration was staged. -/
  | reconfigured (round : Nat) (primaries : Nat) (stepsPerPrimary : Nat)
  /-- A thread retired. -/
  | terminated (round : Nat) (thread : ThreadId)
  deriving DecidableEq

namespace Event

/-- The round in which the event happened. -/
def round : Event → Nat
  | roundStarted round .. | turn round .. | lockAcquired round .. | reconfigured round ..
  | terminated round .. => round

/-- The turn that the event is, if it is one. -/
def turn? : Event → Option (Nat × ThreadId × Slot)
  | turn round thread slot => some (round, thread, slot)
  | _ => none

/-- The start of a round that the event is, if it is one. -/
def roundStart? : Event → Option (Nat × List ThreadId × List Slot)
  | roundStarted round primaries order => some (round, primaries, order)
  | _ => none

/-- The thread that the event gave the lock `l` to, if it did. -/
def grant? (l : LockId) : Event → Option ThreadId
  | lockAcquired _ lock thread _ => if lock = l then some thread else none
  | _ => none

/-- The thread that the event retired, if it did. -/
def termination? : Event → Option ThreadId
  | terminated _ thread => some thread
  | _ => none

/-- Whether the event stages a configuration. -/
def isReconfiguration : Event → Bool
  | reconfigured .. => true
  | _ => false

end Event

/-- A recorded sequence of events, the earliest first. -/
structure Schedule where
  /-- All events. -/
  events : List Event := []
  deriving DecidableEq

namespace Schedule

/-- The number of events. -/
def size (s : Schedule) : Nat := s.events.length

/-- Whether nothing was recorded. -/
def isEmpty (s : Schedule) : Bool := s.events.isEmpty

/-- The turns, each with its round, thread and slot. -/
def turns (s : Schedule) : List (Nat × ThreadId × Slot) := s.events.filterMap Event.turn?

/-- The starts of rounds, each with the primaries and the total order that it started with. -/
def roundStarts (s : Schedule) : List (Nat × List ThreadId × List Slot) :=
  s.events.filterMap Event.roundStart?

/-- The threads that the lock `l` was granted to, in order. -/
def lockGrants (s : Schedule) (l : LockId) : List ThreadId := s.events.filterMap (Event.grant? l)

/-- The threads that retired, in order. -/
def terminations (s : Schedule) : List ThreadId := s.events.filterMap Event.termination?

/-- The requests that staged a configuration. -/
def reconfigurations (s : Schedule) : List Event := s.events.filter Event.isReconfiguration

/-- The locks that were granted at least once, by number. -/
def grantedLocks (s : Schedule) : List LockId :=
  let locks := s.events.filterMap fun
    | .lockAcquired _ lock _ _ => some lock
    | _ => none
  locks.eraseDups.mergeSort fun a b => a.raw ≤ b.raw

/-! ### Comparable order

Within a round, threads that retire and the start of the round itself are recorded at places that
depend on the interleaving. To compare whole schedules, each round is put into a fixed order. -/

/-- The rank of an event within its round: the start of the round, then all other events, then the
retirements by thread. -/
def rank : Event → Nat × Nat
  | .roundStarted .. => (0, 0)
  | .terminated _ thread => (2, thread.raw)
  | _ => (1, 0)

/-- Whether `a` stands before `b`, or either may stand first, in the comparable order. -/
def inOrder (a b : Event) : Bool :=
  if a.round ≠ b.round then a.round < b.round
  else if (rank a).1 ≠ (rank b).1 then (rank a).1 < (rank b).1
  else (rank a).2 ≤ (rank b).2

/-- The events by round and, within a round, by rank; events of one rank stay as recorded. -/
def comparable (s : Schedule) : Schedule := ⟨s.events.mergeSort inOrder⟩

end Schedule

end RoundScheduler
