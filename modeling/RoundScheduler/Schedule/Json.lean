import RoundScheduler.Schedule
import RoundScheduler.Json.Parser
import RoundScheduler.Json.Printer

/-!
# Schedules as JSON

An event is an object with one member: its name is the kind of the event, its value the record of
what the event says.
-/

namespace RoundScheduler

open Json

/-! ### Identifiers -/

/-- A thread as a JSON number. -/
def ThreadId.toJson (t : ThreadId) : Value := .nat t.raw

/-- Reads a thread from a JSON number. -/
def ThreadId.ofJson? (v : Value) : Option ThreadId := v.word?.map ThreadId.mk

/-- A lock as a JSON number. -/
def LockId.toJson (l : LockId) : Value := .nat l.raw

/-- Reads a lock from a JSON number. -/
def LockId.ofJson? (v : Value) : Option LockId := v.word?.map LockId.mk

/-! ### Events -/

namespace Event

/-- An object with one member. -/
def tagged (tag : String) (members : List (String × Value)) : Value :=
  .record [(tag, .record members)]

/-- An event as a JSON object. -/
def toJson : Event → Value
  | roundStarted round primaries order =>
    tagged "RoundStarted"
      [("round", .nat round), ("primaries", .array (primaries.map ThreadId.toJson)),
        ("total_order", .array (order.map Value.nat))]
  | turn round thread slot =>
    tagged "Turn" [("round", .nat round), ("thread", thread.toJson), ("slot", .nat slot)]
  | lockAcquired round lock thread queued =>
    tagged "LockAcquired"
      [("round", .nat round), ("lock", lock.toJson), ("thread", thread.toJson),
        ("queued", .bool queued)]
  | reconfigured round primaries steps =>
    tagged "Reconfigured"
      [("round", .nat round), ("primaries", .nat primaries), ("steps_per_primary", .nat steps)]
  | terminated round thread =>
    tagged "Terminated" [("round", .nat round), ("thread", thread.toJson)]

/-- Reads the start of a round from its record. -/
def roundStartedOfJson? (v : Value) : Option Event := do
  match ← v.fields? ["round", "primaries", "total_order"] with
  | [r, p, o] =>
    return .roundStarted (← r.word?) (← p.list? ThreadId.ofJson?) (← o.list? Value.word?)
  | _ => none

/-- Reads a turn from its record. -/
def turnOfJson? (v : Value) : Option Event := do
  match ← v.fields? ["round", "thread", "slot"] with
  | [r, t, s] => return .turn (← r.word?) (← ThreadId.ofJson? t) (← s.word?)
  | _ => none

/-- Reads a grant from its record. -/
def lockAcquiredOfJson? (v : Value) : Option Event := do
  match ← v.fields? ["round", "lock", "thread", "queued"] with
  | [r, l, t, q] =>
    return .lockAcquired (← r.word?) (← LockId.ofJson? l) (← ThreadId.ofJson? t) (← q.bool?)
  | _ => none

/-- Reads a reconfiguration from its record. -/
def reconfiguredOfJson? (v : Value) : Option Event := do
  match ← v.fields? ["round", "primaries", "steps_per_primary"] with
  | [r, p, s] => return .reconfigured (← r.word?) (← p.word?) (← s.word?)
  | _ => none

/-- Reads a retirement from its record. -/
def terminatedOfJson? (v : Value) : Option Event := do
  match ← v.fields? ["round", "thread"] with
  | [r, t] => return .terminated (← r.word?) (← ThreadId.ofJson? t)
  | _ => none

/-- Reads the record of an event of a kind. -/
def ofTagged? (tag : String) (v : Value) : Option Event :=
  if tag = "RoundStarted" then roundStartedOfJson? v
  else if tag = "Turn" then turnOfJson? v
  else if tag = "LockAcquired" then lockAcquiredOfJson? v
  else if tag = "Reconfigured" then reconfiguredOfJson? v
  else if tag = "Terminated" then terminatedOfJson? v
  else none

/-- Reads an event from a JSON object with one member. -/
def ofJson? : Value → Option Event
  | .object [(some tag, v)] => ofTagged? tag v
  | _ => none

end Event

/-! ### Schedules -/

namespace Schedule

/-- A schedule as a JSON record. -/
def toJson (s : Schedule) : Value :=
  .record [("events", .array (s.events.map Event.toJson))]

/-- Reads a schedule from a JSON record. -/
def ofJson? (v : Value) : Option Schedule := do
  match ← v.fields? ["events"] with
  | [es] => return ⟨← es.list? Event.ofJson?⟩
  | _ => none

/-- The text of a schedule. -/
def jsonText (s : Schedule) : String := s.toJson.compact

/-- Reads a schedule from its text. -/
def ofJsonText? (s : String) : Option Schedule := Value.parse? s >>= ofJson?

end Schedule

end RoundScheduler
