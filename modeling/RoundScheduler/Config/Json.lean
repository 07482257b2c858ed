import RoundScheduler.Config
import RoundScheduler.Json.Parser
import RoundScheduler.Json.Printer

/-!
# Configurations as JSON
-/

namespace RoundScheduler.Config

open Json

/-- The names of the fields, in the order in which they are written. -/
def fieldNames : List String :=
  ["primaries", "steps_per_primary", "admission_factor", "admission_slack", "record_schedule",
    "thread_name_prefix"]

/-- A configuration as a JSON record. -/
def toJson (c : Config) : Value :=
  .record
    [("primaries", .nat c.primaries),
      ("steps_per_primary", .nat c.stepsPerPrimary),
      ("admission_factor", .nat c.admissionFactor),
      ("admission_slack", .nat c.admissionSlack),
      ("record_schedule", .bool c.recordSchedule),
      ("thread_name_prefix", .text c.threadNamePrefix)]

/-- Reads a configuration from a JSON record; no field may be missing. -/
def ofJson? (v : Value) : Option Config := do
  match ← v.fields? fieldNames with
  | [p, s, f, k, r, n] =>
    return {
      primaries := ← p.word?
      stepsPerPrimary := ← s.word?
      admissionFactor := ← f.word?
      admissionSlack := ← k.word?
      recordSchedule := ← r.bool?
      threadNamePrefix := ← n.text? }
  | _ => none

/-- The text of a configuration. -/
def jsonText (c : Config) : String := c.toJson.compact

/-- Reads a configuration from its text. -/
def ofJsonText? (s : String) : Option Config := Value.parse? s >>= ofJson?

end RoundScheduler.Config
