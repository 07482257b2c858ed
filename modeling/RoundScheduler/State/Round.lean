import RoundScheduler.State.Basic

/-!
# Rounds

A round is over when none of its primaries can make progress. Closing it takes the primaries out of
every queue and clears their flags. Beginning the next one puts the staged configuration into force
and removes the threads that retired, which lets waiting submitters through. Primaries are then
chosen one by one from the front of the thread list.
-/

namespace RoundScheduler.State

/-! ### The end of a round -/

/-- The record of a primary whose round closes. -/
def leaveRound (r : ThreadRecord) : ThreadRecord :=
  { r with primary := false, finished := false, waitingForTurn := false }

/-- The state after the round was closed: there are no primaries, and none of the earlier ones is
flagged or queued. -/
def closeRound (s : State) : State :=
  let d := s.detach s.primaries
  { d with
    primaries := []
    records := d.records.map fun t r => if t ∈ s.primaries then leaveRound r else r }

/-! ### The start of a round -/

/-- The state without the listed threads that retired. -/
def prune (s : State) : State :=
  { s with
    threadList := s.threadList.filter fun t => !s.hasTerminated t
    records := s.records.filter fun t r => !(r.terminated && t ∈ s.threadList) }

/-- The state with everybody let through who waited for admission. -/
def letThrough (s : State) : State :=
  { s with
    admissionQueue := []
    records := s.records.map fun t r =>
      if t ∈ s.admissionQueue then { r with admitted := true } else r }

/-- The state at the start of the next round, before its primaries are chosen. -/
def beginRound (s : State) : State :=
  let next := { s with round := s.round + 1, primaries := [], live := s.staged }
  if s.threadList.any s.hasTerminated then next.prune.letThrough else next.prune

/-- The state with a thread chosen as the next primary. -/
def choose (s : State) (t : ThreadId) : State :=
  let s := s.modifyRecord t fun r => { r with primary := true }
  { s with primaries := s.primaries ++ [t] }

/-- The state with the start of the round recorded, once its primaries are chosen. -/
def recordStart (s : State) (order : List Slot) : State :=
  s.record (.roundStarted s.round s.primaries order)

end RoundScheduler.State
