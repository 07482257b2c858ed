import RoundScheduler.CommandLine.Execution

/-!
# The program

Prints what a command line comes to. Nothing is decided here.
-/

namespace RoundScheduler.CommandLine

/-- A number of tenths with its decimal point. -/
def tenthsText (n : Nat) : String := s!"{n / 10}.{n % 10}"

/-- A text moved to the right end of a column. -/
def padLeft (width : Nat) (s : String) : String := "".pushn ' ' (width - s.length) ++ s

/-- Words in columns of some widths. -/
def columns (words : List String) : String :=
  " ".intercalate (List.zipWith padLeft [9, 10, 8, 12, 14] words)

/-- A row as a line of the table. -/
def Row.tableLine (r : Row) : String :=
  let perSecond := if r.nanos = 0 then 0 else r.threads * 10000000000 / r.nanos
  columns [r.mode, r.primariesText, toString r.threads, tenthsText (r.nanos / 100000),
    tenthsText perSecond]

/-- A row as a JSON text. -/
def Row.jsonLine (r : Row) : String :=
  let perSecond := if r.nanos = 0 then 0 else r.threads * 10000000000 / r.nanos
  (Json.Value.record
    [("mode", .text r.mode), ("primaries", r.primaries.elim .null .nat),
      ("threads", .nat r.threads),
      ("elapsed_ms", .number (.other (tenthsText (r.nanos / 100000)))),
      ("throughput", .number (.other (tenthsText perSecond)))]).compact

/-- The lines of the report of `stress`. -/
def reportLines (json : Bool) (rows : List Row) : List String :=
  if json then rows.map Row.jsonLine else columns headerWords :: rows.map Row.tableLine

/-- Why a file cannot be created or written. -/
def fileFailure : IO.Error → String
  | .noFileOrDirectory .. => FileError.notFound.message
  | .permissionDenied .. => FileError.notPermitted.message
  | .inappropriateType _ 20 _ => FileError.notDirectory.message
  | .inappropriateType _ 21 _ => FileError.isDirectory.message
  | e => toString e

/-- Writes a file, or tells why it cannot be written. -/
def writeFile (path text : String) : IO (Except String Unit) := do
  try
    IO.FS.writeFile path text
    return .ok ()
  catch e => return .error (fileFailure e)

/-- The machine that the program runs on. -/
def machine : Host IO where
  create path := writeFile path ""
  write := writeFile
  clock := IO.monoNanosNow

/-- Prints an outcome. -/
def Outcome.print (o : Outcome) : IO Unit := do
  if let some s := o.printed then IO.print (scheduleText s)
  if let some (json, rows) := o.rows then (reportLines json rows).forM IO.println
  if let some (path, lines) := o.log then
    IO.FS.writeFile path (String.join (lines.map (· ++ "\n")))
  if let some s := o.counters then IO.eprintln s.text
  IO.eprint (causesText o.causes)

end RoundScheduler.CommandLine

/-- Carries out the command line. -/
def main (args : List String) : IO UInt32 := do
  let outcome ← RoundScheduler.CommandLine.execute RoundScheduler.CommandLine.machine args
  outcome.print
  return outcome.exit.toUInt32
