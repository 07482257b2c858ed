import RoundScheduler.State.Basic

/-!
# Turns

The live total order alone decides whose turn it is. A primary takes the next step when that step
belongs to its slot; a primary without steps is finished for the round; any other one waits.
-/

namespace RoundScheduler.State

/-- The state with the owner of the next step, if it is known, told to stop waiting. -/
def wakeHead (s : State) : State :=
  match s.headPrimary? with
  | some t => s.modifyRecord t fun r => { r with waitingForTurn := false }
  | none => s

/-- The state after the thread `t` took the next step, which belongs to its slot. The line of the
turn comes before the one about the steps that are left. -/
def takeTurn (s : State) (t : ThreadId) (slot : Slot) : State :=
  let s := { s with live := s.live.consume }
  (s.record (.turn s.round t slot)).note (.orderLeft s.live.order s.primaries)

/-- The state with a thread out of steps for the round. -/
def finish (s : State) (t : ThreadId) : State :=
  s.modifyRecord t fun r => { r with finished := true }

/-- The state with a thread waiting for its turn. -/
def awaitTurn (s : State) (t : ThreadId) : State :=
  s.modifyRecord t fun r => { r with waitingForTurn := true }

/-! ### Retiring -/

/-- The state after a note on the locks that a thread keeps while it retires, if there are any. -/
def noteHeldLocks (s : State) (t : ThreadId) : State :=
  match s.locksOf t with
  | [] => s
  | held => s.note (.retiresHolding t held)

/-- The state with a thread flagged as retired and the steps of its slot gone. -/
def strip (s : State) (t : ThreadId) (slot : Slot) : State :=
  let s := s.modifyRecord t fun r => { r with terminated := true }
  { s with live := s.live.strip slot }

/-- The state with the retirement of a thread counted and recorded. -/
def recordRetirement (s : State) (t : ThreadId) : State :=
  { s with terminated := s.terminated + 1 }.record (.terminated s.round t)

end RoundScheduler.State
