import RoundScheduler.Command

/-!
# Sessions

A system whose callers have programs. Every unit of work has a runner that works through commands,
ends its body, and retires its thread; clients outside have runners too. `Session.act` is one small
step of one runner, and `Session.settle?` lets all of them go on until nobody can.
-/

namespace RoundScheduler

/-- A program for a unit of work. -/
structure Script where
  /-- What it does, in order. -/
  commands : List Command
  /-- How its body ends. -/
  ending : Ending := .returns

/-- What a caller has to do. -/
structure Runner where
  /-- The commands that have not begun, with the numbers by which their answers will be known. -/
  todo : List (Nat × Command) := []
  /-- The command under way. -/
  frame : Option Frame := none
  /-- How the body ends once there are no more commands; a body without an ending waits for
  commands. -/
  ending : Option Ending := none
  /-- Whether its completion is of interest. -/
  isAnnounced : Bool := true

/-- The answer to a command. -/
structure Answered where
  /-- Who had the command. -/
  agent : Agent
  /-- The number of the command. -/
  ticket : Nat
  /-- The answer. -/
  answer : Answer

/-- Why a session has no end, or not even a start. -/
inductive SessionError where
  /-- The scheduler could not be built. -/
  | unbuilt (e : RoundError)
  /-- Somebody goes on for ever. -/
  | livelock
  deriving DecidableEq

/-- A system whose callers have programs. -/
structure Session where
  /-- The system. -/
  system : System
  /-- The threads that may not become primaries, if there is such a rule at all. -/
  barred : Option (List ThreadId) := none
  /-- The programs of scripted units. -/
  scripts : List Script := []
  /-- The runners of everybody who has something to do, or may be told to do something. -/
  runners : Table Agent Runner := ∅
  /-- The answers given, the latest first. -/
  answers : List Answered := []
  /-- The threads whose completion was announced, the latest first. -/
  completed : List ThreadId := []
  /-- The threads whose unit of work failed, the latest first. -/
  failures : List ThreadId := []

namespace Script

/-- The commands of a script, numbered from zero. -/
def numbered (script : Script) : List (Nat × Command) :=
  script.commands.zipIdx.map fun (c, i) => (i, c)

end Script

namespace Session

/-! ### Who may do what -/

/-- Whether a thread may become a primary. -/
def eligible (s : Session) (t : ThreadId) : Bool :=
  match s.barred with
  | none => true
  | some ts => !ts.contains t

/-- The runner of a unit that was started to do some work. -/
def runnerFor (s : Session) : Work → Runner
  | .interactive => {}
  | .noop => { ending := some .returns }
  | .panics => { ending := some .panics }
  | .filler => { ending := some .returns, isAnnounced := false }
  | .scripted n =>
    match s.scripts[n]? with
    | some script => { todo := script.numbered, ending := some script.ending }
    | none => { ending := some .returns }

/-- Whether a runner can go on. -/
def isReady (s : Session) (a : Agent) (r : Runner) : Bool :=
  if s.system.calls.contains a then s.system.canProceed s.eligible a
  else r.frame.isSome || !r.todo.isEmpty || r.ending.isSome

/-! ### One runner -/

/-- The session with a runner changed. -/
def modifyRunner (s : Session) (a : Agent) (f : Runner → Runner) : Session :=
  { s with runners := s.runners.modify a f }

/-- The session with an answer given. -/
def giveAnswer (s : Session) (a : Agent) (ticket : Nat) (answer : Answer) : Session :=
  { s with answers := ⟨a, ticket, answer⟩ :: s.answers }

/-- The session with a runner for the thread that was listed last, if one was listed since there
were `before` of them. A thread that is listed leaves its note as the latest entry of the
journal. -/
def adoptSince (s : Session) (before : Nat) : Session :=
  match s.system.state.journal.head?.bind Entry.listed? with
  | none => s
  | some (t, w) =>
    if before < s.system.state.scheduled then
      { s with runners := s.runners.set (.unit t) (s.runnerFor w) }
    else s

/-- The session after the reply to an operation of a runner. -/
def takeReply (s : Session) (a : Agent) (op : Operation) (reply : Reply) : Session :=
  if op = .retire then { s with runners := s.runners.erase a }
  else
    match (s.runners.get? a).bind (·.frame) with
    | none => s
    | some f =>
      match f.take reply with
      | .inl f => s.modifyRunner a fun r => { r with frame := some f }
      | .inr answer =>
        (s.giveAnswer a f.ticket answer).modifyRunner a fun r => { r with frame := none }

/-- The session after a move of an agent. A call that is not possible names a lock that does not
exist. -/
def perform (s : Session) (a : Agent) (m : Move) : Session :=
  match s.system.move? s.eligible m with
  | none =>
    match (s.runners.get? a).bind (·.frame) with
    | none => { s with runners := s.runners.erase a }
    | some f =>
      (s.giveAnswer a f.ticket (.refused .noSuchLock)).modifyRunner a fun r =>
        { r with frame := none }
  | some sys =>
    let s := { s with system := sys }.adoptSince s.system.state.scheduled
    match sys.calls.get? a, sys.returns with
    | none, ret :: _ => s.takeReply a ret.operation ret.reply
    | _, _ => s

/-- The session with a move made, if it is possible. -/
def move (s : Session) (m : Move) : Session :=
  match s.system.move? s.eligible m with
  | some sys => { s with system := sys }
  | none => s

/-- Begins the next command of a runner. -/
def beginCommand (s : Session) (a : Agent) (ticket : Nat) (c : Command) : Session :=
  let me := match a with
    | .unit t => t
    | .client _ => default
  if c.locks.all s.system.state.locks.contains then
    match c.start me ticket with
    | .inl f => s.modifyRunner a fun r => { r with frame := some f }
    | .inr answer =>
      let s := s.giveAnswer a ticket answer
      match c with
      | .finish e => s.modifyRunner a fun r => { r with ending := some e }
      | _ => s
  else s.giveAnswer a ticket (.refused .noSuchLock)

/-- The session after the body of a unit ended. -/
def endBody (s : Session) (t : ThreadId) (r : Runner) (e : Ending) : Session :=
  let s := s.modifyRunner (.unit t) fun r => { r with ending := none }
  let s := if e ≠ .panics && r.isAnnounced then { s with completed := t :: s.completed } else s
  if e = .returns then s else { s with failures := t :: s.failures }

/-- The next small step of a runner. -/
def act (s : Session) (a : Agent) (r : Runner) : Session :=
  if s.system.inside = some a then s.perform a .advance
  else if s.system.calls.contains a then s.perform a (.enter a)
  else
    match r.frame with
    | some f =>
      match f.rest with
      | op :: rest =>
        (s.modifyRunner a fun r => { r with frame := some { f with rest := rest } }).perform a
          (.call a op)
      | [] => (s.giveAnswer a f.ticket f.answer).modifyRunner a fun r => { r with frame := none }
    | none =>
      match r.todo with
      | (ticket, c) :: todo =>
        (s.modifyRunner a fun r => { r with todo := todo }).beginCommand a ticket c
      | [] =>
        match a, r.ending with
        | .unit t, some e => (s.endBody t r e).perform a (.call a .retire)
        | _, _ => s

/-! ### Everybody -/

/-- Who goes on next: whoever is inside the critical section, else the first runner that can. -/
def next? (s : Session) : Option (Agent × Runner) :=
  match s.system.inside with
  | some a => (s.runners.get? a).map fun r => (a, r)
  | none => s.runners.entries.find? fun (a, r) => s.isReady a r

/-- Lets runners go on until nobody can; `none` if that takes more than `fuel` steps, as it does
when waiters for a lock that is never released close rounds for ever. -/
def settleWithin (s : Session) : Nat → Option Session
  | 0 => none
  | fuel + 1 =>
    match s.next? with
    | none => some s
    | some (a, r) => (s.act a r).settleWithin fuel

/-- How many small steps a session may take before it counts as going on for ever. -/
def patience : Nat := 2000000

/-- The session once nobody can go on; `none` if that never happens. -/
def settle? (s : Session) : Option Session := s.settleWithin patience

/-- A session that nobody used yet, with some locks. -/
def start (c : Config) (barred : Option (List ThreadId)) (locks : Nat)
    (scripts : List Script) : Except RoundError Session :=
  (System.initial c).map fun sys =>
    (List.range locks).foldl (fun s _ => s.move .newLock)
      { system := sys, barred := barred, scripts := scripts }

/-- The session with a runner for somebody outside. -/
def addClient (s : Session) (n : Nat) (todo : List (Nat × Command)) : Session :=
  { s with runners := s.runners.set (.client n) { todo := todo } }

/-- The names of the workers whose completion was announced since there were `before` of them, by
thread. -/
def completionsSince (s : Session) (before : Nat) : List (ThreadId × String) :=
  let ts := s.completed.take (s.completed.length - before)
  (ts.mergeSort fun a b => a.raw ≤ b.raw).map fun t => (t, s.system.config.workerName t)

/-- The log line about a unit of work that failed. -/
def failureLine (t : ThreadId) : String :=
  s!"[uds] unit of work on {t.text} panicked, terminating its logical thread"

end Session

end RoundScheduler
