import RoundScheduler.Summary
import RoundScheduler.Json.Parser
import RoundScheduler.Json.Printer

/-!
# Summaries as JSON
-/

namespace RoundScheduler.Summary

open Json

/-- The names of the fields, in the order in which they are written. -/
def fieldNames : List String :=
  ["round", "live_primaries", "live_total_order_len", "staged_primaries",
    "staged_steps_per_primary", "threads_listed", "admission_waiters", "threads_scheduled",
    "threads_terminated", "locks"]

/-- A summary as a JSON record. -/
def toJson (s : Summary) : Value :=
  .record
    [("round", .nat s.round),
      ("live_primaries", .nat s.livePrimaries),
      ("live_total_order_len", .nat s.liveSteps),
      ("staged_primaries", .nat s.stagedPrimaries),
      ("staged_steps_per_primary", .nat s.stagedStepsPerPrimary),
      ("threads_listed", .nat s.listed),
      ("admission_waiters", .nat s.waiting),
      ("threads_scheduled", .nat s.scheduled),
      ("threads_terminated", .nat s.terminated),
      ("locks", .nat s.locks)]

/-- Reads a summary from a JSON record; no field may be missing. -/
def ofJson? (v : Value) : Option Summary := do
  match ← (← v.fields? fieldNames).mapM Value.word? with
  | [round, livePrimaries, liveSteps, stagedPrimaries, stagedSteps, listed, waiting, scheduled,
      terminated, locks] =>
    return {
      round := round
      livePrimaries := livePrimaries
      liveSteps := liveSteps
      stagedPrimaries := stagedPrimaries
      stagedStepsPerPrimary := stagedSteps
      listed := listed
      waiting := waiting
      scheduled := scheduled
      terminated := terminated
      locks := locks }
  | _ => none

/-- The text of a summary. -/
def jsonText (s : Summary) : String := s.toJson.compact

/-- Reads a summary from its text. -/
def ofJsonText? (s : String) : Option Summary := Value.parse? s >>= ofJson?

end RoundScheduler.Summary
