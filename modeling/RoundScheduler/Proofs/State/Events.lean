import RoundScheduler.Proofs.State.Change

/-!
# What each change records

The events of a state are those of its journal, the earliest first. Changes record events of the
current round, and this file says which ones.
-/

namespace RoundScheduler

namespace Journal

/-- The events of a journal with one more entry. -/
lemma events_cons (e : Entry) (j : Journal) :
    schedule (e :: j) = ⟨(schedule j).events ++ e.event?.toList⟩ := by
  cases h : e.event? <;> simp [schedule, h]

/-- Notes are no events. -/
lemma events_append_of_notes {notes : Journal} (h : ∀ e ∈ notes, e.event? = none) (j : Journal) :
    schedule (notes ++ j) = schedule j := by
  induction notes with
  | nil => rfl
  | cons e notes ih =>
    have hrest := ih fun e' he' => h e' (List.mem_cons_of_mem e he')
    rw [List.cons_append, events_cons, hrest, h e List.mem_cons_self]
    simp

end Journal

namespace State

/-- The events recorded so far, the earliest first. -/
def events (s : State) : List Event := s.journal.schedule.events

variable {s s' : State} {t : ThreadId} {l : LockId}

/-- An event comes last. -/
lemma events_record (e : Event) : (s.record e).events = s.events ++ [e] := by
  rw [events, record, enter, Journal.events_cons]
  rfl

/-- A note is no event. -/
lemma events_note (n : Note) : (s.note n).events = s.events := by
  rw [events, note, enter, Journal.events_cons]
  simp [Entry.event?, events]

/-- The events are those of the journal. -/
lemma events_of_journal (h : s'.journal = s.journal) : s'.events = s.events := by
  rw [events, h, events]

/-! ### Changes that record nothing -/

/-- A request that queues is not recorded. -/
@[simp] lemma events_enqueue : (s.enqueue l t).events = s.events := rfl

/-- The beginning of a round is not recorded before the round is full. -/
@[simp] lemma events_beginRound : s.beginRound.events = s.events :=
  events_of_journal journal_beginRound

/-- Neither the end of a round nor the beginning of the next one is recorded. -/
@[simp] lemma events_nextRound : s.nextRound.events = s.events :=
  events_beginRound (s := s.closeRound)

/-- A dropped lock is noted, not recorded. -/
@[simp] lemma events_dropLock (hl : (s.lock? l).isSome) : (s.dropLock l).events = s.events := by
  have hnotes : ∀ e ∈ s.dropNotes l, e.event? = none := by
    unfold dropNotes
    cases s.lock? l with
    | none => simp
    | some k => by_cases hk : (k.owner.isNone && k.queue.isEmpty) = true <;> simp [hk, Entry.event?]
  rw [dropLock_eq hl, events, Journal.events_append_of_notes hnotes]
  rfl

/-- A new thread is not recorded. -/
@[simp] lemma events_enrol : s.enrol.events = s.events := rfl

/-- A submitter that waits is not recorded. -/
@[simp] lemma events_awaitAdmission : (s.awaitAdmission t).events = s.events := rfl

/-- A listed thread is noted, not recorded. -/
@[simp] lemma events_list (w : Work) : (s.list t w).events = s.events := events_note _

/-! ### Changes that record an event -/

/-- A turn is recorded. -/
@[simp] lemma events_afterTurn (slot : Slot) :
    (s.afterTurn t slot).events = s.events ++ [.turn s.round t slot] := by
  rw [afterTurn_eq, events, Journal.events_cons, Journal.events_cons]
  simp [Entry.event?, events]

/-- A grant of a free lock is recorded as unqueued. -/
@[simp] lemma events_grant :
    (s.grant l t).events = s.events ++ [.lockAcquired s.round l t false] := by
  rw [grant, events_record]
  rfl

/-- The turn of a request comes before its grant. -/
lemma events_granted (slot : Slot) : ((s.afterTurn t slot).grant l t).events =
    s.events ++ [.turn s.round t slot, .lockAcquired s.round l t false] := by
  rw [events_grant, events_afterTurn, round_afterTurn, List.append_assoc]
  rfl

/-- A lock that is handed over is recorded as a queued grant. -/
@[simp] lemma events_handOver :
    (s.handOver l t).events = s.events ++ [.lockAcquired s.round l t true] := by
  rw [handOver, events_record]
  rfl

/-- A request for a configuration is recorded. -/
@[simp] lemma events_staging (n steps : Nat) (c : RoundConfig) :
    (s.staging t n steps c).events = s.events ++ [.reconfigured s.round n steps] := by
  rw [staging, events_record]
  exact congrArg (· ++ [_]) (events_note _)

/-- The turn of a request comes before its configuration. -/
lemma events_staged (slot : Slot) (n steps : Nat) (c : RoundConfig) :
    ((s.afterTurn t slot).staging t n steps c).events =
      s.events ++ [.turn s.round t slot, .reconfigured s.round n steps] := by
  rw [events_staging, events_afterTurn, round_afterTurn, List.append_assoc]
  rfl

/-- A retirement is recorded. -/
@[simp] lemma events_afterRetirement (slot : Slot) :
    (s.afterRetirement t slot).events = s.events ++ [.terminated s.round t] := by
  have hnotes : ∀ e ∈ s.retirementNotes t, e.event? = none := by
    unfold retirementNotes
    cases s.locksOf t <;> simp [Entry.event?]
  rw [afterRetirement_eq, events, Journal.events_cons, Journal.events_append_of_notes hnotes]
  rfl

/-- The start of a round is recorded with its primaries and its order. -/
@[simp] lemma events_recordStart (order : List Slot) :
    (s.recordStart order).events = s.events ++ [.roundStarted s.round s.primaries order] :=
  events_record _

/-! ### All changes -/

/-- A change records events of the current round only. -/
lemma Change.exists_new {w : Option ThreadId} (hc : Change s w s') :
    ∃ new, s'.events = s.events ++ new ∧ ∀ e ∈ new, e.round = s.round := by
  have hnothing : ∀ {s' : State}, s'.events = s.events →
      ∃ new, s'.events = s.events ++ new ∧ ∀ e ∈ new, e.round = s.round :=
    fun h => ⟨[], by simpa using h, nofun⟩
  have hone : ∀ {s' : State} {e : Event}, s'.events = s.events ++ [e] → e.round = s.round →
      ∃ new, s'.events = s.events ++ new ∧ ∀ e ∈ new, e.round = s.round :=
    fun h he => ⟨_, h, by simpa using he⟩
  cases hc with
  | turn t slot => exact hone (events_afterTurn slot) rfl
  | grant t slot l =>
    exact ⟨_, events_granted slot, by simp [Event.round]⟩
  | enqueue t slot => exact hone (events_afterTurn slot) rfl
  | stage t slot n steps c =>
    exact ⟨_, events_staged slot n steps c, by simp [Event.round]⟩
  | retire t slot => exact hone (events_afterRetirement slot) rfl
  | start order => exact hone (events_recordStart order) rfl
  | handOver => exact hone events_handOver rfl
  | bootstrap => exact hnothing events_beginRound
  | next => exact hnothing events_nextRound
  | dropLock l hl => exact hnothing (events_dropLock hl)
  | _ => exact hnothing rfl

/-- What was recorded stays. -/
lemma Change.events_subset {w : Option ThreadId} (hc : Change s w s') : s.events ⊆ s'.events := by
  obtain ⟨new, hevents, -⟩ := hc.exists_new
  exact hevents ▸ List.subset_append_left s.events new

/-- Arrivals record nothing. -/
lemma Arrival.events_eq (ha : Arrival s s') : s'.events = s.events := by
  cases ha <;> simp

/-- Arrivals stage nothing. -/
lemma Arrival.staged_eq (ha : Arrival s s') : s'.staged = s.staged := by
  cases ha <;> rfl

/-- Rounds are begun one after the other. -/
lemma Change.round_eq {w : Option ThreadId} (hc : Change s w s') :
    s'.round = s.round ∨ s'.round = s.round + 1 ∧ s'.primaries = [] ∧ s'.live = s.staged ∧
      s'.events = s.events := by
  cases hc with
  | bootstrap => exact .inr ⟨by simp, by simp, by simp, by simp⟩
  | next => exact .inr ⟨by simp, by simp, by simp, by simp⟩
  | turn t slot | grant t slot | enqueue t slot | stage t slot => exact .inl (round_afterTurn slot)
  | retire t slot => exact .inl (round_afterRetirement slot)
  | dropLock l hl => exact .inl (by rw [dropLock_eq hl])
  | _ => exact .inl rfl

/-- A round is left only when it is filled and none of its primaries can make progress. -/
lemma Change.stuck_of_round_ne {w : Option ThreadId} (hc : Change s w s') (hbegun : s.round ≠ 0)
    (hne : s'.round ≠ s.round) :
    s.live.primaries ≤ s.primaries.length ∧ ∀ t ∈ s.primaries, s.canProgress t = false := by
  cases hc with
  | next hround hfull hstuck => exact ⟨hfull, hstuck⟩
  | bootstrap hround => exact absurd hround hbegun
  | turn t slot | grant t slot | enqueue t slot | stage t slot =>
    exact absurd (round_afterTurn slot) hne
  | retire t slot => exact absurd (round_afterRetirement slot) hne
  | dropLock l hl => exact absurd (by rw [dropLock_eq hl]) hne
  | _ => exact absurd rfl hne

end State

end RoundScheduler
