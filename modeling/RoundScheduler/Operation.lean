import RoundScheduler.State.Admission
import RoundScheduler.State.Lock
import RoundScheduler.State.Round
import RoundScheduler.State.Turn

/-!
# Operations

What callers can ask of a scheduler, what they are told, and where inside an operation a caller
stands. An operation runs in one critical section until it returns or reaches a wait whose
condition is false; it goes on from there once the condition holds. The places are values: the
functions `Phase.step` and `Submission.step` say what happens at each of them.
-/

namespace RoundScheduler

/-! ### What is asked and answered -/

/-- A wish for a new configuration; a part left out stays as staged. -/
inductive Request where
  /-- New numbers of primaries and of steps. -/
  | both (primaries steps : Nat)
  /-- A new number of primaries. -/
  | primaries (n : Nat)
  /-- A new number of steps per primary. -/
  | steps (n : Nat)
  deriving DecidableEq

/-- The numbers that a request asks for on top of a staged configuration. -/
def Request.resolve (staged : RoundConfig) : Request → Nat × Nat
  | both p s => (p, s)
  | primaries p => (p, staged.stepsPerPrimary)
  | steps s => (staged.primaries, s)

/-- Whether the steps of the staged configuration have to be known. -/
def Request.keepsSteps : Request → Bool
  | primaries _ => true
  | _ => false

/-- An operation of the scheduler. -/
inductive Operation where
  /-- Take an ordered step. -/
  | turn
  /-- Acquire a lock, by an ordered step. -/
  | lock (l : LockId)
  /-- Release a lock. -/
  | unlock (l : LockId)
  /-- Ask who owns a lock. -/
  | owner (l : LockId)
  /-- Take a thread out of the queue of a lock. -/
  | unqueue (l : LockId) (t : ThreadId)
  /-- Stage a new configuration, by an ordered step. -/
  | reconfigure (r : Request)
  /-- Start a thread. -/
  | submit (w : Work)
  /-- Start a thread, and more of them until the current round can be filled. -/
  | fill (w : Work)
  /-- Retire the calling thread. -/
  | retire
  deriving DecidableEq

/-- The locks that an operation uses. -/
def Operation.locks : Operation → List LockId
  | lock l | unlock l | owner l | unqueue l _ => [l]
  | _ => []

/-- Why an operation ended without an answer. -/
inductive Panic where
  /-- A thread asked for a lock that it owns. -/
  | reacquired (thread : ThreadId) (lock : LockId)
  /-- The name of a worker holds the null character. -/
  | workerName
  /-- A computation left the range of words. -/
  | overflow (o : Word.Overflow)
  /-- The state contradicts itself. -/
  | fault (f : Fault)
  deriving DecidableEq

/-- The text of a panic, where it is told. -/
def Panic.message? : Panic → Option String
  | reacquired t l => some s!"{t.text} tried to re-acquire {l.text} which it already holds"
  | workerName => none
  | overflow o => some o.message
  | fault f => some f.message

/-- The answer to an operation. -/
inductive Reply where
  /-- It was done. -/
  | done
  /-- The thread that was started. -/
  | thread (t : ThreadId)
  /-- The number of primaries staged. -/
  | staged (primaries : Nat)
  /-- The owner of a lock. -/
  | owner (t : Option ThreadId)
  /-- It was refused. -/
  | refused (e : SchedulerError)
  /-- It broke off. -/
  | panicked (p : Panic)
  deriving DecidableEq

/-! ### Places inside an operation -/

/-- What an ordered step is taken for. -/
inductive Purpose where
  /-- For its own sake. -/
  | turn
  /-- To ask for a lock. -/
  | lock (l : LockId)
  /-- To ask for a configuration. -/
  | reconfigure (r : Request)
  deriving DecidableEq

/-- What a thread does after it looked whether the round is over. -/
inductive AfterCheck where
  /-- Sleep until the round ends, having no steps left. -/
  | awaitRoundEnd (p : Purpose)
  /-- Sleep until its turn comes. -/
  | awaitTurn (p : Purpose)
  /-- Sleep in the queue of a lock. -/
  | awaitHandOver (l : LockId)
  /-- Nothing, having retired. -/
  | leave
  deriving DecidableEq

/-- What the thread that fills a round does once it is filled. -/
inductive AfterFill where
  /-- Take the step for which it had to start the first round. -/
  | takeStep (p : Purpose)
  /-- Retire, for which it had to start the first round. -/
  | retire
  /-- Look whether the new round is over as well. -/
  | recheck (k : AfterCheck)
  deriving DecidableEq

/-- The places of a thread inside `turn`, `lock`, `reconfigure` and `retire`. -/
inductive Phase where
  /-- About to take an ordered step. -/
  | enter (p : Purpose)
  /-- Waiting to be a primary, to take an ordered step. -/
  | awaitPrimary (p : Purpose)
  /-- Waiting for the end of the round, without steps left. -/
  | awaitRoundEnd (p : Purpose)
  /-- Waiting for its turn. -/
  | awaitTurn (p : Purpose)
  /-- Waiting in the queue of a lock. -/
  | awaitHandOver (l : LockId)
  /-- About to look whether the round is over. -/
  | check (k : AfterCheck)
  /-- Filling a round of the given plan, with the thread at an index of the list to look at. -/
  | fill (index : Nat) (plan : RoundConfig) (k : AfterFill)
  /-- About to retire. -/
  | enterRetirement
  /-- Waiting to be a primary, to retire. -/
  | awaitRetirement
  deriving DecidableEq

/-- What a submitter does after its thread was listed. -/
inductive AfterListing where
  /-- Return the thread. -/
  | answer
  /-- Count the primaries that the round lacks. -/
  | count
  /-- Add more threads, then return the first one. -/
  | more (left : Nat) (first : ThreadId)
  deriving DecidableEq

/-- The places of a submitter inside `submit` and `fill`. -/
inductive Submission where
  /-- About to take a number. -/
  | enrol (w : Work) (k : AfterListing)
  /-- Waiting for admission. -/
  | awaitAdmission (t : ThreadId) (w : Work) (k : AfterListing)
  /-- About to start a worker and to list its thread. -/
  | list (t : ThreadId) (w : Work) (k : AfterListing)
  /-- About to count the primaries that the round lacks. -/
  | count (first : ThreadId)
  deriving DecidableEq

/-- A place inside an operation. -/
inductive Point where
  /-- Of a thread. -/
  | thread (me : ThreadId) (p : Phase)
  /-- Of a submitter. -/
  | submission (p : Submission)
  deriving DecidableEq

/-! ### Steps -/

/-- What happens at a place. -/
inductive Outcome where
  /-- The condition is false: the caller sleeps where it is, outside of the critical section. -/
  | sleep
  /-- The caller goes on at another place, within the critical section. -/
  | goto (s : State) (p : Point)
  /-- The caller leaves the critical section and will enter it again at another place. -/
  | pause (s : State) (p : Point)
  /-- The operation returns. -/
  | reply (s : State) (r : Reply)
  deriving DecidableEq

/-- Whether the caller sleeps. -/
def Outcome.isSleep : Outcome → Bool
  | sleep => true
  | _ => false

namespace State

/-- Breaks off because of a contradiction. -/
def fault (s : State) (f : Fault) : Outcome := .reply s (.panicked (.fault f))

/-- Goes on with the record of a thread, which must be there. -/
def withRecord (s : State) (t : ThreadId) (k : ThreadRecord → Outcome) : Outcome :=
  match s.record? t with
  | some r => k r
  | none => s.fault (.noRecord t)

/-- Goes on with the slot of a primary, which must be there. -/
def withSlot (s : State) (t : ThreadId) (k : Slot → Outcome) : Outcome :=
  match s.slotOf? t with
  | some slot => k slot
  | none => s.fault (.noSlot t s.primaries)

/-- Goes on with the state of a lock, which must be there. -/
def withLock (s : State) (l : LockId) (k : LockState → Outcome) : Outcome :=
  match s.lock? l with
  | some lock => k lock
  | none => s.fault (.noLock l)

/-- Goes on if all of some threads have records. -/
def requiring (s : State) (ts : List ThreadId) (k : Outcome) : Outcome :=
  match s.unrecorded? ts with
  | none => k
  | some t => s.fault (.noRecord t)

/-! ### Ordered steps -/

/-- Starts the next round and goes on to fill it. -/
def startRound (s : State) (me : ThreadId) (k : AfterFill) : Outcome :=
  s.requiring (s.threadList ++ s.admissionQueue)
    (.goto s.beginRound (.thread me (.fill 0 s.staged k)))

/-- Asks for a lock, by the step just taken. -/
def askForLock (s : State) (me : ThreadId) (l : LockId) : Outcome :=
  s.withLock l fun lock =>
    if lock.owner.isNone then .reply (s.grant l me) .done
    else .goto (s.enqueue l me) (.thread me (.check (.awaitHandOver l)))

/-- Stages what a request asks for, by the step just taken. -/
def stage (s : State) (me : ThreadId) (r : Request) : Outcome :=
  if r.keepsSteps && s.staged.primaries = 0 then s.fault .noPrimaries
  else
    let (primaries, steps) := r.resolve s.staged
    match RoundConfig.roundRobin primaries steps with
    | .error (.empty e) => .reply s (.refused (.ofEmptyRound e))
    | .error (.overflow o) => .reply s (.panicked (.overflow o))
    | .ok rounds =>
      let s := s.note (.requested s.round me primaries steps)
      .reply ({ s with staged := rounds }.record (.reconfigured s.round primaries steps))
        (.staged rounds.primaries)

/-- Uses the step just taken for its purpose. -/
def serve (s : State) (me : ThreadId) : Purpose → Outcome
  | .turn => .reply s .done
  | .lock l => s.askForLock me l
  | .reconfigure r => s.stage me r

/-- Tries to take an ordered step, as the primary of a slot. -/
def attempt (s : State) (me : ThreadId) (slot : Slot) (p : Purpose) : Outcome :=
  if !s.live.hasStepsFor slot then
    .goto (s.finish me) (.thread me (.check (.awaitRoundEnd p)))
  else if s.live.head? = some slot then
    let s := s.takeTurn me slot
    s.requiring s.headPrimary?.toList (s.wakeHead.serve me p)
  else .goto (s.awaitTurn me) (.thread me (.check (.awaitTurn p)))

/-- Retires a primary. -/
def retire (s : State) (me : ThreadId) (slot : Slot) : Outcome :=
  let s := (s.noteHeldLocks me).strip me slot
  s.requiring s.headPrimary?.toList
    (.goto (s.wakeHead.recordRetirement me) (.thread me (.check .leave)))

/-! ### The end of a round -/

/-- Goes on after the round was found to be open. -/
def proceed (s : State) (me : ThreadId) : AfterCheck → Outcome
  | .awaitRoundEnd p => .goto s (.thread me (.awaitRoundEnd p))
  | .awaitTurn p => .goto s (.thread me (.awaitTurn p))
  | .awaitHandOver l => .goto s (.thread me (.awaitHandOver l))
  | .leave => .reply s .done

/-- Looks whether the round is over, and if it is closes it and starts the next one. -/
def checkRound (s : State) (me : ThreadId) (k : AfterCheck) : Outcome :=
  if s.primaries.length < s.live.primaries then s.proceed me k
  else s.requiring s.primaries <|
    if s.primaries.any s.canProgress then s.proceed me k
    else s.closeRound.startRound me (.recheck k)

/-- Goes on after the round was filled. -/
def afterFill (s : State) (me : ThreadId) : AfterFill → Outcome
  | .takeStep p => .goto s (.thread me (.awaitPrimary p))
  | .retire => .goto s (.thread me .awaitRetirement)
  | .recheck k => .goto s (.thread me (.check k))

/-- Chooses the next primary, or ends the choice, or sleeps for want of threads. -/
def fillRound (s : State) (eligible : ThreadId → Bool) (me : ThreadId) (index : Nat)
    (plan : RoundConfig) (k : AfterFill) : Outcome :=
  if s.primaries.length < plan.primaries then
    match s.threadList[index]? with
    | none => .sleep
    | some t =>
      s.withRecord t fun r =>
        if !r.started then .sleep
        else
          let s := if !r.terminated && eligible t then s.choose t else s
          .goto s (.thread me (.fill (index + 1) plan k))
  else (s.recordStart plan.order).afterFill me k

end State

/-- What happens at a place of the thread `me`. -/
def Phase.step (eligible : ThreadId → Bool) (me : ThreadId) (s : State) : Phase → Outcome
  | enter p =>
    if s.round = 0 then s.startRound me (.takeStep p) else .goto s (.thread me (.awaitPrimary p))
  | awaitPrimary p =>
    s.withRecord me fun r =>
      if r.primary then s.withSlot me fun slot => s.attempt me slot p else .sleep
  | awaitRoundEnd p =>
    s.withRecord me fun r =>
      if r.finished then .sleep else .goto s (.thread me (.awaitPrimary p))
  | awaitTurn p =>
    s.withRecord me fun r =>
      if r.waitingForTurn then .sleep else .goto s (.thread me (.awaitPrimary p))
  | awaitHandOver l =>
    s.withLock l fun lock =>
      if lock.owner = some me then .reply s .done
      else s.withRecord me fun r =>
        if r.enqueued.isSome then .sleep else .goto s (.thread me (.enter (.lock l)))
  | check k => s.checkRound me k
  | fill index plan k => s.fillRound eligible me index plan k
  | enterRetirement =>
    if s.round = 0 then s.startRound me .retire else .goto s (.thread me .awaitRetirement)
  | awaitRetirement =>
    s.withRecord me fun r =>
      if r.primary then s.withSlot me fun slot => s.retire me slot else .sleep

/-! ### Submissions -/

namespace State

/-- Adds the threads that a round lacks, one by one, and returns the first thread. -/
def addFillers (s : State) (first : ThreadId) : Nat → Outcome
  | 0 => .reply s (.thread first)
  | n + 1 => .pause s (.submission (.enrol .filler (.more n first)))

/-- Goes on after a thread was listed. -/
def afterListing (s : State) (t : ThreadId) : AfterListing → Outcome
  | .answer => .reply s (.thread t)
  | .count => .pause s (.submission (.count t))
  | .more left first => s.addFillers first left

end State

/-- What happens at a place of a submitter. -/
def Submission.step (c : Config) (s : State) : Submission → Outcome
  | enrol w k =>
    let t := s.nextThread
    let s := s.enrol
    if s.isFull c then .goto (s.awaitAdmission t) (.submission (.awaitAdmission t w k))
    else .goto s (.submission (.list t w k))
  | awaitAdmission t w k =>
    s.withRecord t fun r =>
      if r.admitted then .goto s (.submission (.list t w k)) else .sleep
  | list t w k =>
    if c.namesWorkers then s.requiring [t] ((s.list t w).afterListing t k)
    else .reply s (.panicked .workerName)
  | count first => s.requiring s.threadList (s.addFillers first s.missingPrimaries)

/-- What happens at a place. -/
def Point.step (c : Config) (eligible : ThreadId → Bool) (s : State) : Point → Outcome
  | thread me p => p.step eligible me s
  | submission p => p.step c s

/-! ### Operations that return at once, and the first places of the others -/

namespace State

/-- Releases a lock, handing it to the head of its queue. -/
def unlock (s : State) (me : ThreadId) (l : LockId) : Outcome :=
  s.withLock l fun lock =>
    if lock.owner ≠ some me then .reply s (.refused (.notOwner l me lock.owner))
    else
      match lock.queue with
      | [] => .reply (s.release l) .done
      | next :: _ => s.requiring [next] (.reply (s.handOver l next) .done)

/-- Takes a thread out of the queue of a lock; if it is linked to that lock it wakes up. -/
def unqueue (s : State) (l : LockId) (t : ThreadId) : Outcome :=
  if s.linkOf? t = some l then .reply (s.detach [t]) .done
  else s.withLock l fun _ => .reply (s.forget l t) .done

/-- Asks for a lock, unless the thread owns it already. -/
def lock (s : State) (me : ThreadId) (l : LockId) : Outcome :=
  s.withLock l fun lock =>
    if lock.owner = some me then .reply s (.panicked (.reacquired me l))
    else .goto s (.thread me (.enter (.lock l)))

end State

/-- Who calls operations. -/
inductive Agent where
  /-- A logical thread. -/
  | unit (t : ThreadId)
  /-- Somebody outside of the scheduler, who has no turns to take. -/
  | client (n : Nat)
  deriving DecidableEq

/-- The first thing that happens when an operation is called; `none` if the caller may not call it,
which is so for outsiders and everything that needs a turn or an owner. -/
def Operation.start? (s : State) : Agent → Operation → Option Outcome
  | _, submit w => some (.goto s (.submission (.enrol w .answer)))
  | _, fill w => some (.goto s (.submission (.enrol w .count)))
  | _, owner l => some (s.withLock l fun lock => .reply s (.owner lock.owner))
  | _, unqueue l t => some (s.unqueue l t)
  | .unit me, turn => some (.goto s (.thread me (.enter .turn)))
  | .unit me, lock l => some (s.lock me l)
  | .unit me, unlock l => some (s.unlock me l)
  | .unit me, reconfigure r => some (.goto s (.thread me (.enter (.reconfigure r))))
  | .unit me, retire => some (.goto s (.thread me .enterRetirement))
  | .client _, _ => none

end RoundScheduler
