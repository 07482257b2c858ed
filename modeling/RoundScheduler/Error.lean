import RoundScheduler.RoundConfig

/-!
# Errors

What a caller of the scheduler or of a lock can be told. Broken invariants are no errors of this
kind: they end the operation, because going on with a corrupted round would let replicas diverge.
-/

namespace RoundScheduler

/-- An operation that was refused. -/
inductive SchedulerError where
  /-- A thread tried to release a lock that it does not own. -/
  | notOwner (lock : LockId) (caller : ThreadId) (owner : Option ThreadId)
  /-- A round without primaries or without steps was asked for. -/
  | invalidConfiguration (reason : String)
  /-- No worker could be started; the text is that of the underlying cause. -/
  | spawn (cause : String)
  deriving DecidableEq

namespace SchedulerError

/-- The text of an error. -/
def message : SchedulerError → String
  | notOwner lock caller (some owner) =>
    s!"{caller.text} tried to release {lock.text} which is owned by {owner.text}"
  | notOwner lock caller none => s!"{caller.text} tried to release {lock.text} which is not held"
  | invalidConfiguration reason => s!"invalid round configuration: {reason}"
  | spawn cause => s!"failed to start worker thread: {cause}"

/-- The text of the cause underneath, where there is one. -/
def source? : SchedulerError → Option String
  | spawn cause => some cause
  | _ => none

/-- The error of a refused round. -/
def ofEmptyRound (e : EmptyRound) : SchedulerError := .invalidConfiguration e.reason

end SchedulerError

end RoundScheduler
