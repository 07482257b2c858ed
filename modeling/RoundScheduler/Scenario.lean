import RoundScheduler.Session

/-!
# Scenarios

A scenario drives a scheduler step by step. Each step starts something, then everybody goes on
until nobody can, and what can be seen from outside is written down. A step whose own operation is
still blocked is pending; its answer comes with a later step.
-/

namespace RoundScheduler

/-- A step of a scenario. -/
inductive Step where
  /-- Somebody outside submits a unit. -/
  | submit (w : Work)
  /-- Somebody outside submits a unit and fills the round. -/
  | fill (w : Work)
  /-- A unit is given a command. -/
  | tell (t : ThreadId) (c : Command)
  /-- A lock is created. -/
  | newLock
  /-- A lock is dropped. -/
  | dropLock (l : LockId)
  /-- A thread is taken out of the queue of a lock. -/
  | unqueue (l : LockId) (t : ThreadId)
  /-- A thread may become a primary from now on, or may not. -/
  | setEligible (t : ThreadId) (b : Bool)
  /-- The counters are asked for. -/
  | query
  /-- The dumps are asked for. -/
  | dump
  /-- The grants of a lock are asked for. -/
  | grants (l : LockId)
  /-- Nothing that scenarios understand. -/
  | unknown
  deriving DecidableEq

/-- The result of a step. -/
inductive Result where
  /-- The operation of the step is still blocked. -/
  | pending
  /-- The answer to a command. -/
  | answer (a : Answer)
  /-- The counters. -/
  | counters (s : Summary)
  /-- The dumps of the scheduler and of every lock, and the configuration. -/
  | dumps (scheduler : String) (locks : List String) (config : Config)
  /-- The threads that a lock was granted to, if the schedule is recorded. -/
  | grants (ts : Option (List ThreadId))

/-- What can be seen after a step. -/
structure Observation where
  /-- The result of the step. -/
  result : Result
  /-- The answers to earlier steps that came with this one, by step. -/
  answered : List (Nat × Answer)
  /-- The completions announced during the step, with the names of the workers. -/
  completed : List (ThreadId × String)
  /-- The events of the step in comparable order, if the schedule is recorded. -/
  events : Option (List Event)
  /-- The locks. -/
  locks : List (LockId × LockState)
  /-- The full report. -/
  report : Except Fault String
  /-- The log lines of the step, sorted. -/
  log : List String

/-- A scheduler to build and the steps to drive it with. -/
structure Scenario where
  /-- The configuration of the scheduler. -/
  config : Config
  /-- How many locks there are to begin with. -/
  locks : Nat := 0
  /-- The threads that may not become primaries, if there is such a rule at all. -/
  barred : Option (List ThreadId) := none
  /-- How much of the log to show: nothing, replicated lines and warnings, or the orders left as
  well. -/
  verbosity : Nat := 0
  /-- The steps. -/
  steps : List Step

namespace Session

/-! ### Steps -/

/-- Whether an interactive unit of that number has started. -/
def hasStarted (s : Session) (t : ThreadId) : Bool :=
  s.system.state.journal.contains (.note (.listed t .interactive))

/-- Whether a runner still waits for commands or works on one. -/
def awaitsCommands (s : Session) (t : ThreadId) : Bool :=
  match s.runners.get? (.unit t) with
  | none => false
  | some r =>
    r.ending.isNone && !(s.system.calls.get? (.unit t)).any (·.operation = .retire)

/-- Whether a runner has not finished its previous command. -/
def isBusy (s : Session) (t : ThreadId) : Bool :=
  (s.runners.get? (.unit t)).any fun r => r.frame.isSome || !r.todo.isEmpty

/-- Why a command cannot be given to a unit, if it cannot. -/
def refusal? (s : Session) (t : ThreadId) : Option Refusal :=
  if !s.hasStarted t then some .noSuchUnit
  else if !s.awaitsCommands t then some .ended
  else if s.isBusy t then some .busy
  else none

/-- Whether a command that has not been answered names a lock. -/
def isLockInUse (s : Session) (l : LockId) : Bool :=
  s.runners.entries.any fun (_, r) => r.frame.any (·.locks.contains l)

/-- The session with a thread taken out of the barred ones, or put among them. -/
def setEligible (s : Session) (t : ThreadId) (b : Bool) : Session :=
  { s with
    barred := s.barred.map fun ts => if b then ts.filter (· ≠ t) else t :: ts }

/-- The form of a lock in dumps. -/
def dumpLock (l : LockId) : String := s!"DetLock \x7b id: {l.debug} \x7d"

/-- Starts the step with the number `i`; a result is given unless it depends on what follows. -/
def startStep (s : Session) (i : Nat) : Step → Session × Option Result
  | .submit w => (s.addClient i [(i, .operation (.submit w))], none)
  | .fill w => (s.addClient i [(i, .operation (.fill w))], none)
  | .tell t c =>
    match s.refusal? t with
    | some r => (s, some (.answer (.refused r)))
    | none => (s.modifyRunner (.unit t) fun r => { r with todo := [(i, c)] }, none)
  | .newLock =>
    (s.move .newLock, some (.answer (.ok (.number s.system.state.nextLock.raw))))
  | .dropLock l =>
    if !s.system.state.locks.contains l then (s, some (.answer (.refused .noSuchLock)))
    else if s.isLockInUse l then (s, some (.answer (.refused .inUse)))
    else (s.move (.dropLock l), some (.answer (.ok .nothing)))
  | .unqueue l t =>
    if !s.system.state.locks.contains l then (s, some (.answer (.refused .noSuchLock)))
    else (s.move (.call (.client i) (.unqueue l t)), some (.answer (.ok .nothing)))
  | .setEligible t b => (s.setEligible t b, some (.answer (.ok .nothing)))
  | .query =>
    match s.system.state.summary with
    | .ok summary => (s, some (.counters summary))
    | .error f => (s, some (.answer (.panic f.message)))
  | .dump =>
    (s, some (.dumps s.system.debug (s.system.state.locks.keys.map dumpLock) s.system.config))
  | .grants l => (s, some (.grants (s.system.schedule?.map (·.lockGrants l))))
  | .unknown => (s, some (.answer (.refused .noSuchOperation)))

/-- The log lines of some entries and failures that a verbosity shows. -/
def shownLines (verbosity : Nat) (entries : List Entry) (failures : List ThreadId) : List String :=
  let shown := entries.filterMap fun e =>
    match e.line? with
    | none => none
    | some (level, line) =>
      if isReplicated line || level = .warn || verbosity ≥ 2 then some line else none
  if verbosity = 0 then []
  else (shown ++ failures.map failureLine).mergeSort fun a b => a ≤ b

/-- Carries out the step with the number `i`; `none` if somebody goes on for ever. -/
def step (s : Session) (verbosity : Nat) (i : Nat) (step : Step) :
    Option (Session × Observation) := do
  let (started, result) := s.startStep i step
  let after ← started.settle?
  let answers := after.answers.take (after.answers.length - s.answers.length)
  let own := (answers.find? fun a => a.ticket = i).map fun a => Result.answer a.answer
  let others := (answers.filter fun a => a.ticket ≠ i).map fun a => (a.ticket, a.answer)
  let state := after.system.state
  let entries := state.journal.take (state.journal.length - s.system.state.journal.length)
  let failures := after.failures.take (after.failures.length - s.failures.length)
  let schedule : Schedule := Journal.schedule entries
  return (after,
    { result := result.getD (own.getD .pending)
      answered := others.mergeSort fun a b => a.1 ≤ b.1
      completed := after.completionsSince s.completed.length
      events := if after.system.config.recordSchedule then some schedule.comparable.events else none
      locks := state.locks.entries
      report := state.fullReport
      log := shownLines verbosity entries failures })

/-- Carries out steps, the first one having the number `i`. -/
def steps (s : Session) (verbosity : Nat) (i : Nat) : List Step → Option (List Observation)
  | [] => some []
  | st :: sts => do
    let (s, o) ← s.step verbosity i st
    return o :: (← s.steps verbosity (i + 1) sts)

end Session

/-- What can be seen after each step of a scenario. -/
def Scenario.observe (sc : Scenario) : Except SessionError (List Observation) :=
  match Session.start sc.config sc.barred sc.locks [] with
  | .error e => .error (.unbuilt e)
  | .ok s =>
    match s.steps sc.verbosity 0 sc.steps with
    | some os => .ok os
    | none => .error .livelock

end RoundScheduler
