import RoundScheduler.Word

/-!
# Summaries

The counters of a scheduler at one moment, for monitoring and for whoever decides on
reconfiguration requests.
-/

namespace RoundScheduler

/-- The counters of a scheduler at one moment. -/
structure Summary where
  /-- The number of the current round, zero before the first. -/
  round : Nat := 0
  /-- The primaries of the live configuration. -/
  livePrimaries : Nat := 0
  /-- The steps left in the live total order. -/
  liveSteps : Nat := 0
  /-- The primaries of the staged configuration. -/
  stagedPrimaries : Nat := 0
  /-- The steps per primary of the staged configuration. -/
  stagedStepsPerPrimary : Nat := 0
  /-- The threads in the thread list. -/
  listed : Nat := 0
  /-- The submitters waiting for admission. -/
  waiting : Nat := 0
  /-- The threads ever listed. -/
  scheduled : Nat := 0
  /-- The threads that retired. -/
  terminated : Nat := 0
  /-- The locks that exist. -/
  locks : Nat := 0
  deriving DecidableEq

namespace Summary

/-- The threads that started and have not retired. -/
def inFlight? (s : Summary) : Except Word.Overflow Nat := Word.sub? s.scheduled s.terminated

/-- The form for people, one line per topic. -/
def text (s : Summary) : String :=
  s!"round: {s.round}\n" ++
  s!"live configuration: {s.livePrimaries} primaries, {s.liveSteps} steps left\n" ++
  s!"staged configuration: {s.stagedPrimaries} primaries x {s.stagedStepsPerPrimary} steps\n" ++
  s!"threads: {s.listed} listed, {s.scheduled} scheduled, {s.terminated} terminated, " ++
  s!"{s.waiting} awaiting admission\n" ++
  s!"locks: {s.locks}"

end Summary

end RoundScheduler
