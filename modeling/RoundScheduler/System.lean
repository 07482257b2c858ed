import RoundScheduler.Operation

/-!
# Systems

A scheduler together with everybody who is inside one of its operations. At most one of them is
inside the critical section; the others sleep at a wait or are about to enter. A `Move` is one
small step: somebody calls an operation, whoever is inside goes one place further, somebody who is
outside enters again. Every interleaving of any number of callers is a sequence of moves.

Sleepers may wake up at any time. One whose condition is still false goes back to sleep and changes
nothing, so nothing depends on who is woken too often. That everybody whose condition holds is woken
at all is taken for granted: whoever makes a condition true notifies those who wait for it. Workers
are taken to start whenever they have a name.

Whoever breaks off inside the critical section poisons the mutex around the state. A poisoned mutex
is taken like any other, by those who enter for the first time and by those who wake up.
-/

namespace RoundScheduler

/-- An operation that was called and has not returned. -/
structure Call where
  /-- The operation. -/
  operation : Operation
  /-- Where its caller stands. -/
  point : Point
  deriving DecidableEq

/-- An operation that returned. -/
structure Return where
  /-- Who had called it. -/
  agent : Agent
  /-- The operation. -/
  operation : Operation
  /-- What the caller was told. -/
  reply : Reply
  deriving DecidableEq

/-- A scheduler with its callers. -/
structure System where
  /-- The configuration that the scheduler was built with. -/
  config : Config
  /-- The coordination state. -/
  state : State
  /-- The operations that were called and have not returned. -/
  calls : Table Agent Call := ∅
  /-- Who is inside the critical section. -/
  inside : Option Agent := none
  /-- The operations that returned, the latest first. -/
  returns : List Return := []
  deriving DecidableEq

/-- What locking the mutex around the state gives. -/
inductive Acquired where
  /-- The state, which nobody broke off with. -/
  | clean (s : State)
  /-- The state as somebody left it who broke off inside the critical section. -/
  | poisoned (s : State)
  deriving DecidableEq

/-- The state behind the mutex, which is used even if the mutex is poisoned. -/
@[inline] def Acquired.recover : Acquired → State
  | clean s => s
  | poisoned s => s

/-- A small step of a system. -/
inductive Move where
  /-- Somebody outside of all operations calls one. -/
  | call (a : Agent) (op : Operation)
  /-- Whoever is inside the critical section goes one place further. -/
  | advance
  /-- Somebody inside an operation, but outside of the critical section, enters it. -/
  | enter (a : Agent)
  /-- A lock is created. -/
  | newLock
  /-- A lock that no operation uses is dropped. -/
  | dropLock (l : LockId)
  deriving DecidableEq

namespace System

/-- A system that nobody used yet. -/
def initial (c : Config) : Except RoundError System :=
  (State.initial c).map fun s => { config := c, state := s }

/-- Whether somebody broke off inside the critical section, which poisons the mutex around it. -/
def isPoisoned (sys : System) : Bool :=
  sys.returns.any fun r => match r.reply with
    | .panicked _ => true
    | _ => false

/-- What locking the mutex gives, for the first time or after a wait. -/
@[inline] def acquire (sys : System) : Acquired :=
  if sys.isPoisoned then .poisoned sys.state else .clean sys.state

/-- Whether somebody can call operations: outsiders always, threads once they started and until
they retired. -/
def isAlive (sys : System) : Agent → Bool
  | .client _ => true
  | .unit t => (sys.state.record? t).any fun r => r.started && !r.terminated

/-- The system after an outcome of the operation `op` of the agent `a`, who stood at the point
`here` if it was inside the operation already. -/
def apply (sys : System) (a : Agent) (op : Operation) : Outcome → System
  | .sleep => { sys with inside := none }
  | .goto s p => { sys with state := s, calls := sys.calls.set a ⟨op, p⟩, inside := some a }
  | .pause s p => { sys with state := s, calls := sys.calls.set a ⟨op, p⟩, inside := none }
  | .reply s r =>
    { sys with
      state := s
      calls := sys.calls.erase a
      inside := none
      returns := ⟨a, op, r⟩ :: sys.returns }

/-- Whether an operation that has not returned uses a lock. -/
def uses (sys : System) (l : LockId) : Bool :=
  sys.calls.entries.any fun (_, call) => call.operation.locks.contains l

/-- What happens when the caller of an operation goes on where it stands. -/
def outcome (sys : System) (eligible : ThreadId → Bool) (call : Call) : Outcome :=
  call.point.step sys.config eligible sys.state

/-- The system after a move, if the move is possible. -/
def move? (sys : System) (eligible : ThreadId → Bool) : Move → Option System
  | .call a op =>
    if sys.inside.isNone && (sys.calls.get? a).isNone && sys.isAlive a &&
        op.locks.all sys.state.locks.contains then
      (op.start? sys.acquire.recover a).map (sys.apply a op)
    else none
  | .advance =>
    match sys.inside with
    | none => none
    | some a => (sys.calls.get? a).map fun call =>
        sys.apply a call.operation (sys.outcome eligible call)
  | .enter a =>
    if sys.inside.isNone && (sys.calls.get? a).isSome then
      some { sys with state := sys.acquire.recover, inside := some a }
    else none
  | .newLock =>
    if sys.inside.isNone then some { sys with state := sys.acquire.recover.registerLock } else none
  | .dropLock l =>
    if sys.inside.isNone && sys.state.locks.contains l && !sys.uses l then
      some { sys with state := sys.acquire.recover.dropLock l }
    else none

/-! ### What can be asked of a system -/

/-- Whether somebody inside an operation would get further by entering the critical section. -/
def canProceed (sys : System) (eligible : ThreadId → Bool) (a : Agent) : Bool :=
  match sys.calls.get? a with
  | none => false
  | some call => !(sys.outcome eligible call).isSleep

/-- The schedule recorded so far, if the scheduler records it. -/
def schedule? (sys : System) : Option Schedule :=
  if sys.config.recordSchedule then some sys.state.journal.schedule else none

/-- The form of the scheduler in dumps. -/
def debug (sys : System) : String :=
  s!"Scheduler \x7b config: {sys.config.debug}, .. \x7d"

end System

end RoundScheduler
