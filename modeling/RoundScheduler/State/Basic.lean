import RoundScheduler.Config
import RoundScheduler.Journal
import RoundScheduler.Summary
import RoundScheduler.Table

/-!
# The coordination state

Everything that the one critical section of a scheduler protects. Threads sleep outside of it and
look at it again when they wake up; whoever is inside may change any part of it.

A look-up that must succeed but does not is a `Fault`: the state contradicts itself, and the
operation ends there. The functions of this folder that change the state are total; who calls them
checks first that what they rely on is there.
-/

namespace RoundScheduler

/-! ### Records -/

/-- The scheduling flags of one thread. -/
structure ThreadRecord where
  /-- In the thread list, and running. -/
  started : Bool := false
  /-- Among the primaries of the current round. -/
  primary : Bool := false
  /-- Out of steps for the current round. -/
  finished : Bool := false
  /-- Retired; never chosen again, and removed at the next start of a round. -/
  terminated : Bool := false
  /-- Asleep until the next step belongs to its slot. -/
  waitingForTurn : Bool := false
  /-- Let through by a start of a round after waiting for admission. -/
  admitted : Bool := false
  /-- The lock whose queue it is in. -/
  enqueued : Option LockId := none
  deriving DecidableEq

namespace ThreadRecord

/-- Whether the thread, as a primary, keeps its round open. -/
def canProgress (r : ThreadRecord) : Bool :=
  !r.terminated && r.enqueued.isNone && !r.finished && !r.waitingForTurn

/-- The form for people, `T1: primary, enqueued on L2 waits for turn`. -/
def text (t : ThreadId) (r : ThreadRecord) : String :=
  t.text ++ ": " ++ (if r.primary then "primary" else "not primary") ++ ", " ++
    if r.terminated then "terminated"
    else
      (if r.finished then "finished round " else "") ++
      (match r.enqueued with
        | some l => "enqueued on " ++ l.text ++ " "
        | none => "") ++
      (if r.waitingForTurn then "waits for turn" else "running")

end ThreadRecord

/-- The owner of a lock and the threads that wait for it, the next owner first. -/
structure LockState where
  /-- The thread that holds the lock. -/
  owner : Option ThreadId := none
  /-- The threads that wait, in the order in which they will be served. -/
  queue : List ThreadId := []
  deriving DecidableEq

/-! ### Faults -/

/-- A contradiction of the state with itself. -/
inductive Fault where
  /-- A thread has no record. -/
  | noRecord (thread : ThreadId)
  /-- A lock is not registered. -/
  | noLock (lock : LockId)
  /-- A thread is flagged as a primary, but it is not among the primaries. -/
  | noSlot (thread : ThreadId) (primaries : List ThreadId)
  /-- The staged configuration has no primaries to divide its steps among. -/
  | noPrimaries
  deriving DecidableEq

/-- The text of a fault. -/
def Fault.message : Fault → String
  | noRecord t => s!"Internal failure: {t.text} has no thread record"
  | noLock l => s!"Internal failure: {l.text} is not registered"
  | noSlot t primaries =>
    s!"Internal failure: {t.text} is flagged primary but missing from primaries " ++
      Text.bracketed (primaries.map ThreadId.debug)
  | noPrimaries => "attempt to divide by zero"

/-! ### The state -/

/-- The coordination state of a scheduler. -/
structure State where
  /-- The number of the current round, zero before the first. -/
  round : Nat := 0
  /-- The number of the next thread. -/
  nextThread : ThreadId := ⟨0⟩
  /-- The number of the next lock. -/
  nextLock : LockId := ⟨0⟩
  /-- The threads in the order of their numbers, from admission until removed after retiring. -/
  threadList : List ThreadId := []
  /-- The records of listed threads and of threads that wait to be listed. -/
  records : Table ThreadId ThreadRecord := ∅
  /-- The primaries of the current round by slot; they change only between rounds. -/
  primaries : List ThreadId := []
  /-- The configuration of the current round, consumed as turns are taken. -/
  live : RoundConfig
  /-- The configuration of the next round. -/
  staged : RoundConfig
  /-- The threads that wait for admission, the first to come first. -/
  admissionQueue : List ThreadId := []
  /-- The locks that exist. -/
  locks : Table LockId LockState := ∅
  /-- How many threads were ever listed. -/
  scheduled : Nat := 0
  /-- How many threads retired. -/
  terminated : Nat := 0
  /-- What happened so far, the latest first. -/
  journal : Journal := []
  deriving DecidableEq

namespace State

/-- The state of a scheduler that nobody used yet. -/
def initial (c : Config) : Except RoundError State :=
  (RoundConfig.roundRobin c.primaries c.stepsPerPrimary).map fun rounds =>
    { live := rounds, staged := rounds }

/-! ### Looking things up -/

/-- The record of a thread. -/
def record? (s : State) (t : ThreadId) : Option ThreadRecord := s.records.get? t

/-- The state of a lock. -/
def lock? (s : State) (l : LockId) : Option LockState := s.locks.get? l

/-- The lock whose queue a thread is in, by its record. -/
def linkOf? (s : State) (t : ThreadId) : Option LockId := (s.record? t).bind (·.enqueued)

/-- The slot of a primary. -/
def slotOf? (s : State) (t : ThreadId) : Option Slot := s.primaries.idxOf? t

/-- The primary whose slot has the next step, if it is already known. -/
def headPrimary? (s : State) : Option ThreadId := s.live.head?.bind (s.primaries[·]?)

/-- The first of some threads that has no record. -/
def unrecorded? (s : State) (ts : List ThreadId) : Option ThreadId :=
  ts.find? fun t => (s.record? t).isNone

/-- Whether a thread retired, as far as it has a record. -/
def hasTerminated (s : State) (t : ThreadId) : Bool := (s.record? t).any (·.terminated)

/-- Whether a thread keeps the round open, as far as it has a record. -/
def canProgress (s : State) (t : ThreadId) : Bool := (s.record? t).any (·.canProgress)

/-- Whether a thread could still become a primary of the current or of the next round. -/
def isCandidate (s : State) (t : ThreadId) : Bool :=
  (s.record? t).any fun r => !r.terminated && !r.primary

/-- How many primaries the current round lacks, counting every candidate as one to come. -/
def missingPrimaries (s : State) : Nat :=
  s.live.primaries - (s.primaries.length + s.threadList.countP s.isCandidate)

/-- The locks that a thread owns. -/
def locksOf (s : State) (t : ThreadId) : List LockId :=
  (s.locks.filter fun _ k => k.owner = some t).keys

/-! ### Small changes -/

/-- The state with an entry added to the journal. -/
def enter (s : State) (e : Entry) : State := { s with journal := e :: s.journal }

/-- The state with an event recorded. -/
def record (s : State) (e : Event) : State := s.enter (.event e)

/-- The state with a note made. -/
def note (s : State) (n : Note) : State := s.enter (.note n)

/-- The state with the record of a thread changed. -/
def modifyRecord (s : State) (t : ThreadId) (f : ThreadRecord → ThreadRecord) : State :=
  { s with records := s.records.modify t f }

/-- The state with a lock changed. -/
def modifyLock (s : State) (l : LockId) (f : LockState → LockState) : State :=
  { s with locks := s.locks.modify l f }

/-- The state with the links of some threads cleared; each is taken out of the queue that it was
linked to. -/
def detach (s : State) (ts : List ThreadId) : State :=
  { s with
    records := s.records.map fun t r => if t ∈ ts then { r with enqueued := none } else r
    locks := s.locks.map fun l k =>
      { k with queue := k.queue.filter fun t => ¬(t ∈ ts ∧ s.linkOf? t = some l) } }

/-! ### Reports -/

/-- The counters of the scheduler. -/
def summary (s : State) : Except Fault Summary :=
  if s.staged.primaries = 0 then .error .noPrimaries
  else .ok {
    round := s.round
    livePrimaries := s.live.primaries
    liveSteps := s.live.order.length
    stagedPrimaries := s.staged.primaries
    stagedStepsPerPrimary := s.staged.stepsPerPrimary
    listed := s.threadList.length
    waiting := s.admissionQueue.length
    scheduled := s.scheduled
    terminated := s.terminated
    locks := s.locks.size }

/-- The line of a listed thread in the full report. -/
def recordLine (s : State) (t : ThreadId) : Except Fault String :=
  match s.record? t with
  | some r => .ok ("  " ++ r.text t ++ "\n")
  | none => .error (.noRecord t)

/-- The counters, the primaries and every listed thread. -/
def fullReport (s : State) : Except Fault String := do
  let summary ← s.summary
  let lines ← s.threadList.mapM s.recordLine
  return summary.text ++ "\nprimaries: " ++ Text.bracketed (s.primaries.map ThreadId.debug) ++ "\n"
    ++ String.join lines

end State

end RoundScheduler
