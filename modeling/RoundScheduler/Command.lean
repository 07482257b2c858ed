import RoundScheduler.System

/-!
# Commands

What a unit of work can be told to do. A command is a short sequence of operations, each in its own
critical section: running something under a lock is to acquire the lock, to do it, and to release
the lock. The answer to a command is put together from the replies to its operations.
-/

namespace RoundScheduler

/-- How the body of a unit of work ends. -/
inductive Ending where
  /-- It returns, and so does what is run on its completion. -/
  | returns
  /-- It returns, but what is run on its completion fails. -/
  | completesBadly
  /-- It fails; nothing is run on its completion. -/
  | panics
  deriving DecidableEq

/-- A command to a unit of work. -/
inductive Command where
  /-- One operation. -/
  | operation (op : Operation)
  /-- Ask for the owner of a lock while holding it. -/
  | withLock (l : LockId)
  /-- Release a lock while holding it. -/
  | withUnlock (l : LockId)
  /-- Fail while holding a lock, which stays held. -/
  | withPanic (l : LockId)
  /-- Ask for the owners of two locks while holding both. -/
  | withNested (outer inner : LockId)
  /-- Show the handle of the thread. -/
  | handle
  /-- Acquire a lock of another scheduler. -/
  | lockForeign
  /-- Release a lock of another scheduler, its first one, which nobody holds. -/
  | unlockForeign
  /-- End the body. -/
  | finish (e : Ending)
  /-- Nothing that units understand. -/
  | unknown
  deriving DecidableEq

/-- Something told to whoever gave a command. -/
inductive Value where
  /-- Nothing but that it was done. -/
  | nothing
  /-- A number. -/
  | number (n : Nat)
  /-- The owner of a lock. -/
  | owner (t : Option ThreadId)
  /-- Texts. -/
  | texts (ts : List String)
  /-- Several things, in order. -/
  | several (vs : List Value)

/-- Why a command was not carried out at all. -/
inductive Refusal where
  /-- No such lock exists. -/
  | noSuchLock
  /-- The lock is used by a unit that is blocked. -/
  | inUse
  /-- No such unit has started. -/
  | noSuchUnit
  /-- The unit was told to end. -/
  | ended
  /-- The unit has not finished its previous command. -/
  | busy
  /-- There is no such command. -/
  | noSuchOperation
  deriving DecidableEq

/-- The text of a refusal. -/
def Refusal.message : Refusal → String
  | noSuchLock => "no such lock"
  | inUse => "in use"
  | noSuchUnit => "no such unit"
  | ended => "ended"
  | busy => "busy"
  | noSuchOperation => "no such op"

/-- The answer to a command. -/
inductive Answer where
  /-- It was carried out. -/
  | ok (v : Value)
  /-- The scheduler refused one of its operations. -/
  | error (e : SchedulerError)
  /-- It broke off; some panics are told without a text. -/
  | panic (message : Option String)
  /-- It was not carried out. -/
  | refused (r : Refusal)

/-! ### Commands under way -/

/-- The rest of a command. -/
structure Frame where
  /-- The number by which the answer will be known. -/
  ticket : Nat
  /-- The operations still to be called. -/
  rest : List Operation
  /-- The locks that the command names. -/
  locks : List LockId := []
  /-- What the operations so far have told. -/
  values : List Value := []
  /-- The latest refusal among the operations so far. -/
  failure : Option SchedulerError := none
  /-- The text of the failure with which the command ends once its operations are over. -/
  breaksOff : Option String := none

/-- The answer to a command whose operations are over. -/
def Frame.answer (f : Frame) : Answer :=
  match f.breaksOff, f.failure with
  | some text, _ => .panic text
  | none, some e => .error e
  | none, none =>
    match f.values with
    | [] => .ok .nothing
    | [v] => .ok v
    | vs => .ok (.several vs)

/-- The frame after a reply to one of its operations, or the answer if the reply ends the
command. -/
def Frame.take (f : Frame) : Reply → Frame ⊕ Answer
  | .done => .inl f
  | .thread t => .inl { f with values := f.values ++ [.number t.raw] }
  | .staged n => .inl { f with values := f.values ++ [.number n] }
  | .owner t => .inl { f with values := f.values ++ [.owner t] }
  | .refused e => .inl { f with failure := some e }
  | .panicked p => .inr (.panic p.message?)

namespace Command

/-- The locks that a command names. -/
def locks : Command → List LockId
  | operation op => op.locks
  | withLock l | withUnlock l | withPanic l => [l]
  | withNested outer inner => [outer, inner]
  | _ => []

/-- The operations of a command. -/
def operations : Command → List Operation
  | operation op => [op]
  | withLock l => [.lock l, .owner l, .unlock l]
  | withUnlock l => [.lock l, .unlock l, .unlock l]
  | withPanic l => [.lock l]
  | withNested outer inner =>
    [.lock outer, .lock inner, .owner outer, .owner inner, .unlock inner, .unlock outer]
  | _ => []

/-- What a command of the thread `me` becomes when it begins: a frame to work through, or an answer
for commands that never reach the scheduler. -/
def start (me : ThreadId) (ticket : Nat) : Command → Frame ⊕ Answer
  | handle => .inr (.ok (.texts [me.text, s!"ThreadHandle \x7b id: {me.debug} \x7d"]))
  | lockForeign => .inr (.panic none)
  | unlockForeign => .inr (.error (.notOwner ⟨0⟩ me none))
  | unknown => .inr (.refused .noSuchOperation)
  | finish _ => .inr (.ok .nothing)
  | c@(withPanic _) =>
    .inl
      { ticket := ticket
        rest := c.operations
        locks := c.locks
        breaksOff := some s!"closure of {me.text} failed" }
  | c => .inl { ticket := ticket, rest := c.operations, locks := c.locks }

end Command

end RoundScheduler
