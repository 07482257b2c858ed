import RoundScheduler.State.Basic

/-!
# Admission

A submission first takes a number and makes a record. While the thread list is longer than the
admission bound it waits; then its worker starts and it joins the thread list.
-/

namespace RoundScheduler.State

/-- The state with the next number taken and its record made. -/
def enrol (s : State) : State :=
  { s with nextThread := s.nextThread.next, records := s.records.set s.nextThread {} }

/-- Whether a new submission has to wait. -/
def isFull (s : State) (c : Config) : Bool :=
  s.threadList.length > c.admissionBound s.live.primaries

/-- The state with a thread waiting for admission. -/
def awaitAdmission (s : State) (t : ThreadId) : State :=
  { s with admissionQueue := s.admissionQueue ++ [t] }

/-- The state with a thread appended to the thread list. -/
def list (s : State) (t : ThreadId) (w : Work) : State :=
  let s := s.modifyRecord t fun r => { r with started := true }
  { s with threadList := s.threadList ++ [t], scheduled := s.scheduled + 1 }.note (.listed t w)

end RoundScheduler.State
