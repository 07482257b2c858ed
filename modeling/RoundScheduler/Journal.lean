import RoundScheduler.Schedule
import RoundScheduler.Text.Bracketed

/-!
# The journal

Everything that a scheduler lets be observed while it works: the events of its schedule and notes
for the log. Events that replicas must agree on are log lines too; those lines start with a fixed
word, so that the logs of two replicas can be compared line by line.
-/

namespace RoundScheduler

/-- What a unit of work does once it runs. -/
inductive Work where
  /-- It executes the commands that are sent to it. -/
  | interactive
  /-- It returns at once. -/
  | noop
  /-- It fails at once. -/
  | panics
  /-- It executes the script with this number. -/
  | scripted (script : Nat)
  /-- It returns at once; it only fills a round, and nobody waits for its completion. -/
  | filler
  deriving DecidableEq

/-- A remark for the log that is no event of the schedule. -/
inductive Note where
  /-- A thread asked for a new configuration. -/
  | requested (round : Nat) (thread : ThreadId) (primaries : Nat) (stepsPerPrimary : Nat)
  /-- The steps that were left after a turn, with the primaries known so far. -/
  | orderLeft (order : List Slot) (primaries : List ThreadId)
  /-- A thread retires while it owns locks. -/
  | retiresHolding (thread : ThreadId) (locks : List LockId)
  /-- A lock was dropped while it was owned or waited for. -/
  | lockDropped (lock : LockId) (owner : Option ThreadId) (waiters : Nat)
  /-- A thread was appended to the thread list to do some work. -/
  | listed (thread : ThreadId) (work : Work)
  deriving DecidableEq

/-- An entry of the journal. -/
inductive Entry where
  /-- An event of the schedule. -/
  | event (e : Event)
  /-- A remark for the log. -/
  | note (n : Note)
  deriving DecidableEq

/-- How urgent a log line is, the least urgent level last. -/
inductive Level where
  /-- Something is wrong. -/
  | warn
  /-- Rare and of interest to everyone. -/
  | info
  /-- One line per decision. -/
  | debug
  /-- Everything. -/
  | trace
  deriving DecidableEq

/-- The place of a level in the order of urgency, the most urgent one first. -/
def Level.rank : Level → Nat
  | .warn => 2
  | .info => 3
  | .debug => 4
  | .trace => 5

/-! ### Log lines -/

/-- The line that replicas compare for an event, with its level. Requests for a new configuration
have one too, on the note that names the thread. -/
def Event.line? : Event → Option (Level × String)
  | roundStarted round primaries order =>
    some (.debug, s!"DETLOG [uds] round {round} primaries " ++
      s!"{Text.bracketed (primaries.map ThreadId.debug)} total order {Text.bracketedNumbers order}")
  | turn round thread slot =>
    some (.debug, s!"DETLOG [uds] round {round} turn: {thread.text} (slot {slot})")
  | _ => none

/-- The names of the owners of the steps of an order, as far as they are known. -/
def ownersText (order : List Slot) (primaries : List ThreadId) : String :=
  Text.bracketed <| order.map fun slot =>
    match primaries[slot]? with
    | some t => t.text
    | none => "(not yet known)"

/-- The owner of a lock in the line about its end. -/
def ownerText : Option ThreadId → String
  | some t => s!"Some({t.debug})"
  | none => "None"

/-- The line of a note, with its level. -/
def Note.line? : Note → Option (Level × String)
  | requested round t primaries steps =>
    some (.info, s!"DETLOG [uds] round {round}: {t.text} requests {primaries} primaries " ++
      s!"x {steps} steps")
  | orderLeft order primaries =>
    some (.trace, s!"[uds] total order left is {Text.bracketedNumbers order} is " ++
      ownersText order primaries)
  | retiresHolding t locks =>
    some (.warn, s!"[uds] {t.text} terminates while still holding " ++
      Text.bracketed (locks.map LockId.debug))
  | lockDropped l owner waiters =>
    some (.warn, s!"[uds] {l.text} dropped while held by {ownerText owner} with {waiters} waiters")
  | listed _ _ => none

/-- The line of an entry, with its level. -/
def Entry.line? : Entry → Option (Level × String)
  | .event e => e.line?
  | .note n => n.line?

/-- The event that an entry is, if it is one. -/
def Entry.event? : Entry → Option Event
  | .event e => some e
  | .note _ => none

/-- The thread that an entry says was listed, with its work. -/
def Entry.listed? : Entry → Option (ThreadId × Work)
  | .note (.listed t w) => some (t, w)
  | _ => none

/-- Whether a line must be the same on every replica. -/
def isReplicated (line : String) : Bool := line.startsWith "DETLOG"

/-- What happened so far, the latest entry first. -/
abbrev Journal := List Entry

namespace Journal

/-- The events, the earliest first. -/
def schedule (j : Journal) : Schedule := ⟨j.reverse.filterMap Entry.event?⟩

/-- The log lines with their levels, the earliest first. -/
def lines (j : Journal) : List (Level × String) := j.reverse.filterMap Entry.line?

end Journal

end RoundScheduler
