import RoundScheduler.Session

/-!
# Batches

A batch submits scripted units while all of them wait at a gate outside of the scheduler, then
opens the gate and lets everything run until nobody can go on.
-/

namespace RoundScheduler

/-- A scheduler to build and the scripts of its units. -/
structure Batch where
  /-- The configuration of the scheduler. -/
  config : Config
  /-- How many locks there are. -/
  locks : Nat := 0
  /-- The threads that may not become primaries, if there is such a rule at all. -/
  barred : Option (List ThreadId) := none
  /-- The scripts, in the order of submission. -/
  scripts : List Script

/-- What a batch comes to. -/
structure BatchOutcome where
  /-- The answers to the submissions; a submission that is still blocked has none. -/
  submissions : List (Option Answer)
  /-- The completions, with the names of the workers, by thread. -/
  completed : List (ThreadId × String)
  /-- The answers that each unit got, in order, by thread; units without answers are left out. -/
  answers : List (ThreadId × List Answer)
  /-- The locks at the end. -/
  locks : List (LockId × LockState)
  /-- The full report at the end. -/
  report : Except Fault String
  /-- The schedule in comparable order, if it is recorded. -/
  schedule : Option Schedule

namespace Batch

/-- The submission of one unit for each script. -/
def submissions (b : Batch) : List (Nat × Command) :=
  b.scripts.zipIdx.map fun (_, i) => (i, .operation (.submit .interactive))

/-- The answers to the submissions, in their order. -/
def submissionAnswers (b : Batch) (s : Session) : List (Option Answer) :=
  b.scripts.zipIdx.map fun (_, i) =>
    (s.answers.find? fun a => a.agent = .client 0 ∧ a.ticket = i).map (·.answer)

/-- The session with the gate open: the unit at each place in the thread list has its script. -/
def openGate (b : Batch) (s : Session) : Session :=
  (s.system.state.threadList.zip b.scripts).foldl
    (fun s (t, script) =>
      s.modifyRunner (.unit t) fun r =>
        { r with todo := script.numbered, ending := some script.ending })
    s

/-- The answers that a unit got, in order. -/
def answersOf (s : Session) (t : ThreadId) : List Answer :=
  (s.answers.filter fun a => a.agent = .unit t).reverse.map (·.answer)

/-- Runs a batch. -/
def run (b : Batch) : Except SessionError BatchOutcome :=
  match Session.start b.config b.barred b.locks [] with
  | .error e => .error (.unbuilt e)
  | .ok s =>
    match (s.addClient 0 b.submissions).settle?.bind fun s => (b.openGate s).settle? with
    | none => .error .livelock
    | some s =>
      let threads := (List.range s.system.state.nextThread.raw).map ThreadId.mk
      .ok
        { submissions := b.submissionAnswers s
          completed := s.completionsSince 0
          answers := (threads.map fun t => (t, answersOf s t)).filter fun (_, as) => !as.isEmpty
          locks := s.system.state.locks.entries
          report := s.system.state.fullReport
          schedule := s.system.schedule?.map (·.comparable) }

end Batch

end RoundScheduler
