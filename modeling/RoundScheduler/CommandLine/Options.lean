import RoundScheduler.Config.Flags
import RoundScheduler.Journal
import RoundScheduler.Workload

/-!
# Options of the command line

The program runs a workload and either prints the recorded schedule (`trace`) or reports on a series
of primary counts (`stress`). Options for the log stand before the subcommand.
-/

namespace RoundScheduler.CommandLine

/-! ### Values -/

/-- The levels of log lines that have a name, with their numbers; lines of a higher number are left
out. -/
def levelNames : List (String × Nat) :=
  [("", 1), ("off", 0), ("error", 1), ("warn", 2), ("info", 3), ("debug", 4), ("trace", 5)]

/-- The number of the level that a text names, in any case, or writes as a numeral. -/
def readLevel? (s : String) : Option Nat :=
  match readWord? s with
  | some n => if n ≤ 5 then some n else none
  | none => (levelNames.find? fun l => l.1 = s.toLower).map (·.2)

/-- The items between commas. -/
def splitCommas (s : String) : List String :=
  s.splitOn ","

/-- The words between commas. -/
def readWords? (s : String) : Option (List Nat) := (splitCommas s).mapM readWord?

/-! ### Options -/

/-- The options that all subcommands share. -/
structure LogOptions where
  /-- The number of the level up to which lines are logged. -/
  level : Nat := 2
  /-- The file that the log goes to. -/
  file : Option String := none
  deriving DecidableEq

/-- The options of `trace`. -/
structure TraceOptions where
  /-- The configuration of the scheduler. -/
  config : Config := {}
  /-- The units that contend for the lock. -/
  units : Nat := 4
  /-- The critical sections of each unit. -/
  criticalSections : Nat := 2
  /-- The number of primaries to stage before the workload. -/
  reconfigureTo : Option Nat := none
  /-- The file that the schedule goes to. -/
  output : Option String := none
  /-- Whether the final counters are printed. -/
  summary : Bool := false
  deriving DecidableEq

/-- The options of `stress`. -/
structure StressOptions where
  /-- The configuration of the scheduler, up to its number of primaries. -/
  config : Config := {}
  /-- The numbers of primaries, one run for each. -/
  primaries : List Nat := [1, 2, 3, 4, 5, 6, 7, 8, 10, 12, 14, 16, 20]
  /-- The units of each run. -/
  threads : Nat := 1000
  /-- Whether the same work is done without a scheduler first. -/
  baseline : Bool := false
  /-- Whether runs are reported as JSON. -/
  json : Bool := false
  deriving DecidableEq

/-- A subcommand with its options. -/
inductive Subcommand where
  /-- Print the schedule of a workload. -/
  | trace (o : TraceOptions)
  /-- Report on a series of primary counts. -/
  | stress (o : StressOptions)
  deriving DecidableEq

/-- A command line that was understood. -/
structure Invocation where
  /-- The options for the log. -/
  log : LogOptions
  /-- What to do. -/
  subcommand : Subcommand
  deriving DecidableEq

/-! ### Reading -/

/-- What stands before the subcommand. -/
def grammar : Grammar :=
  { flags :=
      [{ name := "log", letter := some 'l', accepts := fun s => (readLevel? s).isSome },
        { name := "log-file" }]
    subcommands := ["trace", "stress", "help"]
    hasVersion := true }

/-- The grammar of `trace`. -/
def traceGrammar : Grammar :=
  { flags := Config.flags ++
      [wordFlag "units", wordFlag "critical-sections", wordFlag "reconfigure-to",
        { name := "output", letter := some 'o' }, { name := "summary", takesValue := false }] }

/-- The grammar of `stress`. -/
def stressGrammar : Grammar :=
  { flags := Config.flags ++
      [{ name := "primaries-list"
         isRepeatable := true
         accepts := fun s => (readWords? s).isSome },
        wordFlag "threads", wordFlag "load-nanos", { name := "baseline", takesValue := false },
        { name := "json", takesValue := false }] }

/-- The options of `trace` that a reading describes. -/
def TraceOptions.ofReading (r : Reading) : TraceOptions :=
  let standard : TraceOptions := {}
  { config := Config.ofReading r
    units := Config.wordOf r "units" standard.units
    criticalSections := Config.wordOf r "critical-sections" standard.criticalSections
    reconfigureTo := (r.value? "reconfigure-to").bind readWord?
    output := r.value? "output"
    summary := r.has "summary" }

/-- The options of `stress` that a reading describes. -/
def StressOptions.ofReading (r : Reading) : StressOptions :=
  let standard : StressOptions := {}
  { config := Config.ofReading r
    primaries :=
      if r.has "primaries-list" then (r.values "primaries-list").flatMap fun s =>
        (readWords? s).getD []
      else standard.primaries
    threads := Config.wordOf r "threads" standard.threads
    baseline := r.has "baseline"
    json := r.has "json" }

/-- Reads and checks arguments by a grammar. -/
def readChecked (g : Grammar) (args : List String) : Except ArgumentError Reading := do
  let r ← g.read args
  r.check g
  return r

/-- Whether the help has something to say about a topic: the program as a whole, or one of its
subcommands. -/
def isHelpTopic : List String → Bool
  | [] => true
  | [name] => grammar.subcommands.contains name
  | _ => false

/-- Reads a subcommand and its arguments. -/
def readSubcommand (name : String) (args : List String) : Except ArgumentError Subcommand :=
  if name = "trace" then
    (readChecked traceGrammar args).map fun r => .trace (.ofReading r)
  else if name = "stress" then
    (readChecked stressGrammar args).map fun r => .stress (.ofReading r)
  else if isHelpTopic args then .error .displayHelp
  else .error .unknownArgument

/-- Reads a command line; what stands behind the subcommand is looked at first. -/
def Invocation.ofArguments (args : List String) : Except ArgumentError Invocation := do
  let r ← grammar.read args
  match r.subcommand with
  | none =>
    r.check grammar
    throw .missingSubcommand
  | some (name, rest) =>
    let subcommand ← readSubcommand name rest
    r.check grammar
    let standard : LogOptions := {}
    return {
      log :=
        { level := ((r.value? "log").bind readLevel?).getD standard.level
          file := r.value? "log-file" }
      subcommand := subcommand }

end RoundScheduler.CommandLine
