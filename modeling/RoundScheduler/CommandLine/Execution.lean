import RoundScheduler.CommandLine.FileTree
import RoundScheduler.CommandLine.Options
import RoundScheduler.Schedule.Json

/-!
# Carrying out a command line

What a command line comes to, up to files and clocks, which the `Host` stands for. What goes wrong
is a chain of causes, the outermost one first, or a computation that leaves the range of words.
-/

namespace RoundScheduler.CommandLine

/-- What carrying out a command line needs from outside. -/
structure Host (m : Type → Type) where
  /-- Creates a file at a path, or tells why it cannot be created. -/
  create : String → m (Except String Unit)
  /-- Writes a text to a file that was created, or tells why it cannot be written. -/
  write : String → String → m (Except String Unit)
  /-- The time in nanoseconds. -/
  clock : m Nat

/-- One line of the report of `stress`. -/
structure Row where
  /-- What was measured. -/
  mode : String
  /-- The number of primaries, if there were any. -/
  primaries : Option Nat
  /-- The units that ran. -/
  threads : Nat
  /-- How long they took, in nanoseconds. -/
  nanos : Nat
  deriving DecidableEq

/-- The host whose files are those of a tree, and whose clock stands still. -/
def FileTree.host (t : FileTree) : Host Id where
  create path := (t.create path).map (fun _ => ()) |>.mapError FileError.message
  write path _ := if t.isFull path then .error FileError.noSpace.message else .ok ()
  clock := 0

/-- Why a command was not carried out to its end. -/
inductive Failure where
  /-- Something went wrong for a chain of causes, the outermost one first. -/
  | causes (cs : List String)
  /-- A computation left the range of words. -/
  | overflow (o : Word.Overflow)
  deriving DecidableEq

/-- The exit code of a failure. -/
def Failure.exit : Failure → Nat
  | causes _ => 1
  | overflow _ => 101

/-- What is told about a failure, the outermost cause first. -/
def Failure.texts : Failure → List String
  | causes cs => cs
  | overflow o => [o.message]

/-- What a command line comes to. -/
structure Outcome where
  /-- The exit code. -/
  exit : Nat := 0
  /-- What went wrong, the outermost cause first. -/
  causes : List String := []
  /-- The schedule for the standard output. -/
  printed : Option Schedule := none
  /-- The file that the schedule goes to. -/
  written : Option (String × Schedule) := none
  /-- The counters for the standard error output. -/
  counters : Option Summary := none
  /-- The rows of the report, and whether they are JSON. -/
  rows : Option (Bool × List Row) := none
  /-- The file that the log goes to, with its lines. -/
  log : Option (String × List String) := none

/-- The outcome of a command that failed. -/
def Outcome.failed (f : Failure) : Outcome := { exit := f.exit, causes := f.texts }

/-! ### Texts -/

/-- What is printed about the causes of a failure. -/
def causesText : List String → String
  | [] => ""
  | c :: cs => s!"Error: {c}\n" ++ String.join (cs.map fun c => s!"     > {c}\n")

/-- The head of the report of `stress`. -/
def headerWords : List String := ["mode", "primaries", "threads", "elapsed ms", "threads/s"]

/-- The number of primaries of a row. -/
def Row.primariesText (r : Row) : String := r.primaries.elim "-" toString

/-- A schedule as it is printed. -/
def scheduleText (s : Schedule) : String := s.toJson.pretty ++ "\n"

/-! ### Trace -/

/-- A run of the scheduler that came to an end, or what went wrong, with the journal up to there. -/
abbrev Run := Except Failure Session × Journal

/-- What went wrong in a run without an end. -/
def stuck : Failure := .causes ["the workload does not come to an end"]

/-- The session after a unit staged a number of primaries in the first round, which no-ops fill. -/
def reconfigure (s : Session) (configured primaries : Nat) : Run :=
  let request := Command.operation (.reconfigure (.primaries primaries))
  let s := { s with scripts := [{ commands := [request] }] }
  let todo := Workload.submissions 0 1 (fun _ => .scripted 0) ++
    Workload.submissions 1 (configured - 1) fun _ => .filler
  match (s.addClient 1 todo).settle? with
  | none => (.error stuck, [])
  | some s =>
    let journal := s.system.state.journal
    match s.answers.find? fun a => a.agent = .unit ⟨0⟩ with
    | some ⟨_, _, .ok _⟩ => (.ok s, journal)
    | some ⟨_, _, .error e⟩ =>
      (.error (.causes ["reconfiguration request rejected", e.message]), journal)
    | some ⟨_, _, .panic _⟩ =>
      (.error (.causes ["the reconfiguring unit died", "receiving on a closed channel"]), journal)
    | _ => (.error stuck, journal)

/-- The session after a workload ran to its end. -/
def runWorkload (s : Session) (w : Workload) (primaries : Nat) : Run :=
  match w.run s 0 primaries with
  | .error o => (.error (.overflow o), s.system.state.journal)
  | .ok none => (.error stuck, [])
  | .ok (some s) =>
    if s.isQuiescent then (.ok s, s.system.state.journal)
    else (.error stuck, s.system.state.journal)

/-- A fresh session for a configuration; `context` stands in front of the reason why there is
none. -/
def freshSession (c : Config) (context : List String) : Except Failure Session :=
  match Session.start c none 0 [] with
  | .ok s => .ok s
  | .error (.empty e) => .error (.causes (context ++ [e.reason]))
  | .error (.overflow o) => .error (.overflow o)

/-- The session at the end of a `trace`. -/
def TraceOptions.run (o : TraceOptions) : Run :=
  match freshSession { o.config with recordSchedule := true } [] with
  | .error f => (.error f, [])
  | .ok s =>
    let w : Workload := { units := o.units, criticalSections := o.criticalSections }
    match o.reconfigureTo with
    | none => runWorkload s w o.config.primaries
    | some n =>
      match reconfigure s o.config.primaries n with
      | (.error f, journal) => (.error f, journal)
      | (.ok s, _) => runWorkload s w n

/-- The outcome of a `trace`, and its journal. -/
def TraceOptions.execute {m : Type → Type} [Monad m] (o : TraceOptions) (host : Host m) :
    m (Outcome × Journal) := do
  match o.run with
  | (.error f, journal) => return (.failed f, journal)
  | (.ok s, journal) =>
    let schedule := journal.schedule
    let counters := if o.summary then s.system.state.summary.toOption else none
    match o.output with
    | none => return ({ printed := some schedule, counters := counters }, journal)
    | some path =>
      match ← host.create path with
      | .error cause => return (.failed (.causes [s!"creating {path}", cause]), journal)
      | .ok _ =>
        match ← host.write path (scheduleText schedule) with
        | .error cause => return (.failed (.causes [cause]), journal)
        | .ok _ => return ({ written := some (path, schedule), counters := counters }, journal)

/-! ### Stress -/

/-- The workload of each run. -/
def StressOptions.workload (o : StressOptions) : Workload :=
  { units := o.threads, criticalSections := 2 }

/-- The run for a number of primaries. -/
def StressOptions.run (o : StressOptions) (primaries : Nat) : Run :=
  let context := [s!"invalid configuration for {primaries} primaries"]
  match freshSession { o.config with primaries := primaries } context with
  | .error f => (.error f, [])
  | .ok s => runWorkload s o.workload primaries

/-- The rows for some numbers of primaries up to the first failure, what went wrong there, and the
journal of all runs. -/
def StressOptions.rows {m : Type → Type} [Monad m] (o : StressOptions) (host : Host m) :
    List Nat → m (List Row × Option Failure × Journal)
  | [] => return ([], none, [])
  | primaries :: rest => do
    let start ← host.clock
    match o.run primaries with
    | (.error f, journal) => return ([], some f, journal)
    | (.ok s, journal) =>
      let stop ← host.clock
      let row : Row :=
        { mode := "uds"
          primaries := some primaries
          threads := s.system.state.scheduled
          nanos := stop - start }
      let (rows, failure, later) ← o.rows host rest
      return (row :: rows, failure, later ++ journal)

/-- The row of the same work without a scheduler, which nothing can hold up. -/
def StressOptions.baselineRow (o : StressOptions) : Row :=
  { mode := "baseline", primaries := none, threads := o.threads, nanos := 0 }

/-- The outcome of a `stress`, and its journal. -/
def StressOptions.execute {m : Type → Type} [Monad m] (o : StressOptions) (host : Host m) :
    m (Outcome × Journal) := do
  let (rows, failure, journal) ← o.rows host o.primaries
  let rows := if o.baseline then o.baselineRow :: rows else rows
  let outcome := failure.elim {} Outcome.failed
  return ({ outcome with rows := some (o.json, rows) }, journal)

/-! ### Everything -/

/-- The log lines of a journal up to a level. -/
def logLines (level : Nat) (j : Journal) : List String :=
  j.lines.filterMap fun (l, line) => if l.rank ≤ level then some line else none

/-- The outcome of an invocation; the log file is created before anything else is done. -/
def Invocation.execute {m : Type → Type} [Monad m] (i : Invocation) (host : Host m) :
    m Outcome := do
  let run : m (Outcome × Journal) := match i.subcommand with
    | .trace o => o.execute host
    | .stress o => o.execute host
  match i.log.file with
  | none => return (← run).1
  | some path =>
    match ← host.create path with
    | .error cause => return .failed (.causes [s!"Failed to open log file {path}", cause])
    | .ok _ =>
      let (outcome, journal) ← run
      return { outcome with log := some (path, logLines i.log.level journal) }

/-- The exit code of a command line that is not carried out. -/
def ArgumentError.exit : ArgumentError → Nat
  | .displayHelp | .displayVersion => 0
  | _ => 2

/-- What a command line comes to. -/
def execute {m : Type → Type} [Monad m] (host : Host m) (args : List String) : m Outcome :=
  match Invocation.ofArguments args with
  | .ok i => i.execute host
  | .error e => return { exit := e.exit }

end RoundScheduler.CommandLine
