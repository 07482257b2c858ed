import Mathlib.Tactic.Lemma
import RoundScheduler.Operation

/-!
# Records and locks after each change

The changes that a scheduler makes to its state are composed of small updates. This file says what
each change does to the record of a thread and to a lock; every other part of the state that a
change does not name stays as it is by definition. Two changes look at the state before they act,
waking the owner of the next step and noting the locks of a retiring thread, and these are brought
into the form of a plain update first.
-/

namespace RoundScheduler.State

/-! ### Changes that belong together -/

/-- The state after the thread `t` took the next step and the owner of the step after it, if known,
was told to stop waiting. -/
def afterTurn (s : State) (t : ThreadId) (slot : Slot) : State := (s.takeTurn t slot).wakeHead

/-- The state after the thread `t` retired as the primary of a slot. -/
def afterRetirement (s : State) (t : ThreadId) (slot : Slot) : State :=
  ((s.noteHeldLocks t).strip t slot).wakeHead.recordRetirement t

/-- The state after the round was closed and the next one began. -/
def nextRound (s : State) : State := s.closeRound.beginRound

/-- The state after a request of the thread `t` for a configuration was granted. -/
def staging (s : State) (t : ThreadId) (primaries steps : Nat) (rounds : RoundConfig) : State :=
  { s.note (.requested s.round t primaries steps) with staged := rounds }.record
    (.reconfigured s.round primaries steps)

variable {s : State} {t u : ThreadId} {l m : LockId}

/-! ### Small updates -/

/-- A change to one record, written as a change to every record that acts on one of them. -/
lemma record?_modifyRecord (f : ThreadRecord → ThreadRecord) :
    (s.modifyRecord t f).record? u = (s.record? u).map fun r => if u = t then f r else r :=
  Table.get?_map s.records _ u

/-- A change to one lock, written as a change to every lock that acts on one of them. -/
lemma lock?_modifyLock (f : LockState → LockState) :
    (s.modifyLock l f).lock? m = (s.lock? m).map fun k => if m = l then f k else k :=
  Table.get?_map s.locks _ m

/-- A change to one record, the new record being given in another form. -/
lemma record?_modifyRecord_eq {f g : ThreadRecord → ThreadRecord}
    (h : ∀ r, (if u = t then f r else r) = g r) :
    (s.modifyRecord t f).record? u = (s.record? u).map g := by
  rw [record?_modifyRecord, funext h]

/-- A change to one lock, the new lock being given in another form. -/
lemma lock?_modifyLock_eq {f g : LockState → LockState}
    (h : ∀ k, (if m = l then f k else k) = g k) :
    (s.modifyLock l f).lock? m = (s.lock? m).map g := by
  rw [lock?_modifyLock, funext h]

/-- A change to every record, the new record being given in another form. -/
lemma get?_map_eq {f : ThreadId → ThreadRecord → ThreadRecord} {g : ThreadRecord → ThreadRecord}
    (h : ∀ r, f u r = g r) : (s.records.map f).get? u = (s.record? u).map g := by
  rw [Table.get?_map, funext h]
  rfl

/-- Threads that are detached lose their link to a lock, and nobody else does. -/
lemma record?_detach (ts : List ThreadId) : (s.detach ts).record? u =
    (s.record? u).map fun r => { r with enqueued := if u ∈ ts then none else r.enqueued } :=
  get?_map_eq fun r => by split <;> rfl

/-- A detached thread leaves the queue of the lock that it was linked to. -/
lemma lock?_detach (ts : List ThreadId) : (s.detach ts).lock? m = (s.lock? m).map fun k =>
    { k with queue := k.queue.filter fun t => ¬(t ∈ ts ∧ s.linkOf? t = some m) } :=
  Table.get?_map s.locks _ m

/-! ### Turns -/

/-- A thread that finishes is flagged, and no other record changes. -/
lemma record?_finish : (s.finish t).record? u = (s.record? u).map fun r =>
    { r with finished := if u = t then true else r.finished } :=
  record?_modifyRecord_eq fun r => by split <;> rfl

/-- A thread that waits for its turn is flagged, and no other record changes. -/
lemma record?_awaitTurn : (s.awaitTurn t).record? u = (s.record? u).map fun r =>
    { r with waitingForTurn := if u = t then true else r.waitingForTurn } :=
  record?_modifyRecord_eq fun r => by split <;> rfl

/-- To finish does nothing to locks. -/
@[simp] lemma lock?_finish : (s.finish t).lock? l = s.lock? l := rfl

/-- To wait for a turn does nothing to locks. -/
@[simp] lemma lock?_awaitTurn : (s.awaitTurn t).lock? l = s.lock? l := rfl

/-- To wake the owner of the next step changes records only, as a change to every record that acts
on one of them. -/
lemma wakeHead_eq : s.wakeHead =
    { s with records := s.records.map fun u r =>
        if s.headPrimary? = some u then { r with waitingForTurn := false } else r } := by
  unfold wakeHead
  cases h : s.headPrimary? with
  | none => simp [Table.map]
  | some t => simp [modifyRecord, Table.modify, eq_comm]

/-- The owner of the next step no longer waits for its turn. -/
lemma record?_wakeHead : s.wakeHead.record? u = (s.record? u).map fun r =>
    { r with waitingForTurn :=
        if s.headPrimary? = some u then false else r.waitingForTurn } := by
  rw [wakeHead_eq]
  exact get?_map_eq fun r => by split <;> rfl

/-- The primary, if already known, whose slot is first in the order of a configuration. -/
def headOwner? (s : State) (c : RoundConfig) : Option ThreadId := c.head?.bind (s.primaries[·]?)

/-- A turn as one update: a step is gone, the owner of the next one is awake, and the turn is
recorded before the order that is left is noted. -/
lemma afterTurn_eq (slot : Slot) : s.afterTurn t slot =
    { s with
      live := s.live.consume
      records := s.records.map fun u r =>
        if s.headOwner? s.live.consume = some u then { r with waitingForTurn := false } else r
      journal := .note (.orderLeft s.live.consume.order s.primaries) ::
        .event (.turn s.round t slot) :: s.journal } := by
  rw [afterTurn, wakeHead_eq]
  rfl

/-- After a turn only the owner of the next step has another record: it does not wait. -/
lemma record?_afterTurn (slot : Slot) :
    (s.afterTurn t slot).record? u = (s.record? u).map fun r =>
      { r with waitingForTurn :=
          if s.headOwner? s.live.consume = some u then false else r.waitingForTurn } :=
  record?_wakeHead

/-- A turn does not change the round. -/
@[simp] lemma round_afterTurn (slot : Slot) : (s.afterTurn t slot).round = s.round := by
  rw [afterTurn_eq]

/-- A turn does not change the primaries. -/
@[simp] lemma primaries_afterTurn (slot : Slot) : (s.afterTurn t slot).primaries = s.primaries := by
  rw [afterTurn_eq]

/-- A turn does not change the staged configuration. -/
@[simp] lemma staged_afterTurn (slot : Slot) : (s.afterTurn t slot).staged = s.staged := by
  rw [afterTurn_eq]

/-- A turn does not change the list of threads. -/
@[simp] lemma threadList_afterTurn (slot : Slot) :
    (s.afterTurn t slot).threadList = s.threadList := by
  rw [afterTurn_eq]

/-- A turn names no thread. -/
@[simp] lemma nextThread_afterTurn (slot : Slot) :
    (s.afterTurn t slot).nextThread = s.nextThread := by
  rw [afterTurn_eq]

/-- A turn names no lock. -/
@[simp] lemma nextLock_afterTurn (slot : Slot) : (s.afterTurn t slot).nextLock = s.nextLock := by
  rw [afterTurn_eq]

/-- A turn takes one step off the order. -/
@[simp] lemma live_afterTurn (slot : Slot) : (s.afterTurn t slot).live = s.live.consume := by
  rw [afterTurn_eq]

/-- A turn by itself does nothing to locks. -/
@[simp] lemma lock?_afterTurn (slot : Slot) : (s.afterTurn t slot).lock? l = s.lock? l := by
  rw [afterTurn_eq]
  rfl

/-- To stage a configuration does nothing to locks. -/
@[simp] lemma lock?_staging (n steps : Nat) (c : RoundConfig) :
    (s.staging t n steps c).lock? l = s.lock? l := rfl

/-- The notes on the locks that a thread keeps while it retires, if there are any. -/
def retirementNotes (s : State) (t : ThreadId) : Journal :=
  match s.locksOf t with
  | [] => []
  | held => [.note (.retiresHolding t held)]

/-- A retirement as one update: the slot has no steps left, the thread is flagged and counted, the
owner of the next step is awake, and what the thread holds is noted before the retirement is
recorded. -/
lemma afterRetirement_eq (slot : Slot) : s.afterRetirement t slot =
    { s with
      live := s.live.strip slot
      records := (s.records.modify t fun r => { r with terminated := true }).map fun u r =>
        if s.headOwner? (s.live.strip slot) = some u then { r with waitingForTurn := false } else r
      terminated := s.terminated + 1
      journal := .event (.terminated s.round t) :: (s.retirementNotes t ++ s.journal) } := by
  have hnotes : s.noteHeldLocks t = { s with journal := s.retirementNotes t ++ s.journal } := by
    unfold noteHeldLocks retirementNotes
    cases s.locksOf t <;> rfl
  rw [afterRetirement, hnotes, wakeHead_eq]
  rfl

/-- After a retirement the thread is flagged and the owner of the next step does not wait. -/
lemma record?_afterRetirement (slot : Slot) :
    (s.afterRetirement t slot).record? u = (s.record? u).map fun r =>
      { r with
        terminated := if u = t then true else r.terminated
        waitingForTurn :=
          if s.headOwner? (s.live.strip slot) = some u then false else r.waitingForTurn } := by
  rw [afterRetirement_eq]
  simp only [record?, Table.get?_map, Table.get?_modify]
  by_cases ht : u = t <;> by_cases hu : s.headOwner? (s.live.strip slot) = some u <;>
    cases s.records.get? u <;> simp_all

/-- A retirement does not change the round. -/
@[simp] lemma round_afterRetirement (slot : Slot) : (s.afterRetirement t slot).round = s.round := by
  rw [afterRetirement_eq]

/-- A retirement does not change the primaries: the thread keeps its slot. -/
@[simp] lemma primaries_afterRetirement (slot : Slot) :
    (s.afterRetirement t slot).primaries = s.primaries := by
  rw [afterRetirement_eq]

/-- A retirement does not change the staged configuration. -/
@[simp] lemma staged_afterRetirement (slot : Slot) :
    (s.afterRetirement t slot).staged = s.staged := by
  rw [afterRetirement_eq]

/-- A retired thread stays on the list until the round is over. -/
@[simp] lemma threadList_afterRetirement (slot : Slot) :
    (s.afterRetirement t slot).threadList = s.threadList := by
  rw [afterRetirement_eq]

/-- A retirement names no thread. -/
@[simp] lemma nextThread_afterRetirement (slot : Slot) :
    (s.afterRetirement t slot).nextThread = s.nextThread := by
  rw [afterRetirement_eq]

/-- A retirement names no lock. -/
@[simp] lemma nextLock_afterRetirement (slot : Slot) :
    (s.afterRetirement t slot).nextLock = s.nextLock := by
  rw [afterRetirement_eq]

/-- A retirement strips the steps of the slot from the order. -/
@[simp] lemma live_afterRetirement (slot : Slot) :
    (s.afterRetirement t slot).live = s.live.strip slot := by
  rw [afterRetirement_eq]

/-- A thread that retires keeps its locks and its place in their queues. -/
@[simp] lemma lock?_afterRetirement (slot : Slot) :
    (s.afterRetirement t slot).lock? l = s.lock? l := by
  rw [afterRetirement_eq]
  rfl

/-! ### Locks -/

/-- A granted lock has a new owner. -/
lemma lock?_grant : (s.grant l t).lock? m = (s.lock? m).map fun k =>
    { k with owner := if m = l then some t else k.owner } :=
  lock?_modifyLock_eq fun k => by split <;> rfl

/-- A request comes last in the queue of its lock. -/
lemma lock?_enqueue : (s.enqueue l t).lock? m = (s.lock? m).map fun k =>
    { k with queue := if m = l then k.queue ++ [t] else k.queue } :=
  lock?_modifyLock_eq fun k => by split <;> rfl

/-- A thread that queues is linked to the lock. -/
lemma record?_enqueue : (s.enqueue l t).record? u = (s.record? u).map fun r =>
    { r with enqueued := if u = t then some l else r.enqueued } :=
  record?_modifyRecord_eq fun r => by split <;> rfl

/-- A released lock has no owner. -/
lemma lock?_release : (s.release l).lock? m = (s.lock? m).map fun k =>
    { k with owner := if m = l then none else k.owner } :=
  lock?_modifyLock_eq fun k => by split <;> rfl

/-- A lock that is handed over has a new owner, who leaves the queue that it was in. -/
lemma lock?_handOver : (s.handOver l t).lock? m = (s.lock? m).map fun k =>
    { owner := if m = l then some t else k.owner
      queue := k.queue.filter fun u => ¬(u = t ∧ s.linkOf? u = some m) } := by
  have h : (s.handOver l t).lock? m =
      ((s.modifyLock l fun k => { k with owner := some t }).detach [t]).lock? m := rfl
  have hlink : ∀ u, (s.modifyLock l fun k => { k with owner := some t }).linkOf? u = s.linkOf? u :=
    fun _ => rfl
  rw [h, lock?_detach, lock?_modifyLock, Option.map_map]
  congr 1
  funext k
  simp only [Function.comp, hlink, List.mem_singleton]
  split <;> rfl

/-- The new owner of a lock that is handed over is linked to no lock. -/
lemma record?_handOver : (s.handOver l t).record? u = (s.record? u).map fun r =>
    { r with enqueued := if u ∈ [t] then none else r.enqueued } :=
  record?_detach [t]

/-- A request that is removed leaves the queue of that lock only. -/
lemma lock?_forget : (s.forget l t).lock? m = (s.lock? m).map fun k =>
    { k with queue := if m = l then k.queue.filter (· ≠ t) else k.queue } :=
  lock?_modifyLock_eq fun k => by split <;> rfl

/-- A new lock is free, and the other locks are as before. -/
lemma lock?_registerLock : s.registerLock.lock? m =
    if m = s.nextLock then some {} else s.lock? m :=
  Table.get?_set s.locks s.nextLock m {}

/-- The note on a lock that is dropped in use, if it is. -/
def dropNotes (s : State) (l : LockId) : Journal :=
  match s.lock? l with
  | none => []
  | some k =>
    if k.owner.isNone && k.queue.isEmpty then []
    else [.note (.lockDropped l k.owner k.queue.length)]

/-- A registered lock that is dropped is erased, with a note if it was in use. -/
lemma dropLock_eq (h : (s.lock? l).isSome) : s.dropLock l =
    { s with locks := s.locks.erase l, journal := s.dropNotes l ++ s.journal } := by
  obtain ⟨k, hk⟩ := Option.isSome_iff_exists.mp h
  unfold dropLock dropNotes
  simp only [hk]
  split <;> rfl

/-- A dropped lock is not found, and the other locks are as before. -/
lemma lock?_dropLock (h : (s.lock? l).isSome) :
    (s.dropLock l).lock? m = if m = l then none else s.lock? m := by
  rw [dropLock_eq h]
  exact Table.get?_erase s.locks l m

/-! ### Rounds -/

/-- The end of a round clears the flags and the links of its primaries and of nobody else. -/
lemma record?_closeRound : s.closeRound.record? u = (s.record? u).map fun r =>
    { r with
      primary := if u ∈ s.primaries then false else r.primary
      finished := if u ∈ s.primaries then false else r.finished
      waitingForTurn := if u ∈ s.primaries then false else r.waitingForTurn
      enqueued := if u ∈ s.primaries then none else r.enqueued } := by
  have h : s.closeRound.record? u = ((s.detach s.primaries).record? u).map fun r =>
      if u ∈ s.primaries then leaveRound r else r := Table.get?_map _ _ u
  rw [h, record?_detach, Option.map_map]
  congr 1
  funext r
  simp only [Function.comp]
  split <;> rfl

/-- The end of a round takes the requests of its primaries out of the queues. -/
lemma lock?_closeRound : s.closeRound.lock? m = (s.lock? m).map fun k =>
    { k with queue := k.queue.filter fun t => ¬(t ∈ s.primaries ∧ s.linkOf? t = some m) } :=
  lock?_detach _

/-- Every submitter that is let through is flagged. -/
lemma record?_letThrough : s.letThrough.record? u = (s.record? u).map fun r =>
    { r with admitted := if u ∈ s.admissionQueue then true else r.admitted } :=
  get?_map_eq fun r => by split <;> rfl

/-- Whether the start of the next round lets the waiting submitters through. -/
def admits (s : State) : Bool := s.threadList.any s.hasTerminated

/-- The beginning of a round prunes the list, and lets submitters through if that removed somebody.
-/
lemma beginRound_eq_ite : s.beginRound =
    if s.admits then
      { s with round := s.round + 1, primaries := [], live := s.staged }.prune.letThrough
    else { s with round := s.round + 1, primaries := [], live := s.staged }.prune := rfl

/-- The rounds are counted. -/
@[simp] lemma round_beginRound : s.beginRound.round = s.round + 1 := by
  rw [beginRound_eq_ite]; split <;> rfl

/-- A round begins without primaries. -/
@[simp] lemma primaries_beginRound : s.beginRound.primaries = [] := by
  rw [beginRound_eq_ite]; split <;> rfl

/-- A round runs under the configuration that was staged. -/
@[simp] lemma live_beginRound : s.beginRound.live = s.staged := by
  rw [beginRound_eq_ite]; split <;> rfl

/-- The staged configuration stays staged when it comes into force. -/
@[simp] lemma staged_beginRound : s.beginRound.staged = s.staged := by
  rw [beginRound_eq_ite]; split <;> rfl

/-- The beginning of a round names no thread. -/
@[simp] lemma nextThread_beginRound : s.beginRound.nextThread = s.nextThread := by
  rw [beginRound_eq_ite]; split <;> rfl

/-- The beginning of a round names no lock. -/
@[simp] lemma nextLock_beginRound : s.beginRound.nextLock = s.nextLock := by
  rw [beginRound_eq_ite]; split <;> rfl

/-- Nothing is recorded before the round is full. -/
@[simp] lemma journal_beginRound : s.beginRound.journal = s.journal := by
  rw [beginRound_eq_ite]; split <;> rfl

/-- The beginning of a round does nothing to locks. -/
@[simp] lemma lock?_beginRound : s.beginRound.lock? m = s.lock? m := by
  rw [beginRound_eq_ite]; split <;> rfl

/-- Those who retired are pruned from the list. -/
lemma threadList_beginRound :
    s.beginRound.threadList = s.threadList.filter fun t => !s.hasTerminated t := by
  rw [beginRound_eq_ite]; split <;> rfl

/-- The queue of submitters is emptied as a whole or not at all. -/
lemma admissionQueue_beginRound :
    s.beginRound.admissionQueue = if s.admits then [] else s.admissionQueue := by
  rw [beginRound_eq_ite]; split <;> rfl

/-- No thread has two records after the beginning of a round. -/
lemma keys_nodup_beginRound (h : s.records.keys.Nodup) : s.beginRound.records.keys.Nodup := by
  rw [beginRound_eq_ite]
  split
  · exact (Table.keys_map _ _).symm ▸ Table.nodup_keys_filter h _
  · exact Table.nodup_keys_filter h _

/-- The records of listed threads that retired are gone, and submitters that are let through are
flagged. -/
lemma record?_beginRound (h : s.records.keys.Nodup) : s.beginRound.record? u =
    ((s.record? u).filter fun r => !(r.terminated && u ∈ s.threadList)).map fun r =>
      { r with admitted := if s.admits ∧ u ∈ s.admissionQueue then true else r.admitted } := by
  have hprune : { s with round := s.round + 1, primaries := [], live := s.staged }.prune.record? u =
      (s.record? u).filter fun r => !(r.terminated && u ∈ s.threadList) := Table.get?_filter h _ u
  rw [beginRound_eq_ite]
  split
  · next hadmits =>
    rw [record?_letThrough, hprune]
    simp only [hadmits, true_and]
    rfl
  · next hadmits =>
    rw [hprune]
    simp [hadmits]

/-- A chosen thread is flagged as a primary. -/
lemma record?_choose : (s.choose t).record? u = (s.record? u).map fun r =>
    { r with primary := if u = t then true else r.primary } :=
  record?_modifyRecord_eq fun r => by split <;> rfl

/-- To choose a primary does nothing to locks. -/
@[simp] lemma lock?_choose : (s.choose t).lock? l = s.lock? l := rfl

/-- To record the start of a round does nothing to locks. -/
@[simp] lemma lock?_recordStart (order : List Slot) :
    (s.recordStart order).lock? l = s.lock? l := rfl

/-- The next round has the next number. -/
@[simp] lemma round_nextRound : s.nextRound.round = s.round + 1 := round_beginRound

/-- The next round begins without primaries. -/
@[simp] lemma primaries_nextRound : s.nextRound.primaries = [] := primaries_beginRound

/-- The next round runs under the configuration that was staged. -/
@[simp] lemma live_nextRound : s.nextRound.live = s.staged := live_beginRound

/-- Between two rounds no lock is named. -/
@[simp] lemma nextLock_nextRound : s.nextRound.nextLock = s.nextLock := nextLock_beginRound

/-- In the next round the requests of the former primaries are out of the queues. -/
lemma lock?_nextRound : s.nextRound.lock? m = (s.lock? m).map fun k =>
    { k with queue := k.queue.filter fun t => ¬(t ∈ s.primaries ∧ s.linkOf? t = some m) } := by
  rw [nextRound, lock?_beginRound, lock?_closeRound]

/-! ### Admission -/

/-- A new thread has an empty record, and the other records are as before. -/
lemma record?_enrol : s.enrol.record? u = if u = s.nextThread then some {} else s.record? u :=
  Table.get?_set s.records s.nextThread u {}

/-- A listed thread is flagged as started. -/
lemma record?_list (w : Work) : (s.list t w).record? u = (s.record? u).map fun r =>
    { r with started := if u = t then true else r.started } :=
  record?_modifyRecord_eq fun r => by split <;> rfl

end RoundScheduler.State
