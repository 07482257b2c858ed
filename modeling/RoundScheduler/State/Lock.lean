import RoundScheduler.State.Basic

/-!
# Locks

A lock is granted to the thread that asks for it when it is free, and handed to the head of its
queue when it is released. A thread in a queue is linked to its lock; both sides change together.
-/

namespace RoundScheduler.State

/-- The state with a new, free lock; its number is the old value of `nextLock`. -/
def registerLock (s : State) : State :=
  { s with nextLock := s.nextLock.next, locks := s.locks.set s.nextLock {} }

/-- The state without a lock; a lock in use is worth a note. -/
def dropLock (s : State) (l : LockId) : State :=
  match s.lock? l with
  | none => s
  | some k =>
    let s := { s with locks := s.locks.erase l }
    if k.owner.isNone && k.queue.isEmpty then s
    else s.note (.lockDropped l k.owner k.queue.length)

/-- The state with a free lock granted to the thread that asked for it. -/
def grant (s : State) (l : LockId) (t : ThreadId) : State :=
  (s.modifyLock l fun k => { k with owner := some t }).record
    (.lockAcquired s.round l t false)

/-- The state with a thread at the end of the queue of a lock. -/
def enqueue (s : State) (l : LockId) (t : ThreadId) : State :=
  (s.modifyLock l fun k => { k with queue := k.queue ++ [t] }).modifyRecord t fun r =>
    { r with enqueued := some l }

/-- The state with a lock that nobody waits for released. -/
def release (s : State) (l : LockId) : State :=
  s.modifyLock l fun k => { k with owner := none }

/-- The state with a lock handed to a thread that waits for it. -/
def handOver (s : State) (l : LockId) (t : ThreadId) : State :=
  ((s.modifyLock l fun k => { k with owner := some t }).detach [t]).record
    (.lockAcquired s.round l t true)

/-- The state with a thread taken out of the queue of a lock that it is not linked to. -/
def forget (s : State) (l : LockId) (t : ThreadId) : State :=
  s.modifyLock l fun k => { k with queue := k.queue.filter (· ≠ t) }

end RoundScheduler.State
