import RoundScheduler.Proofs.State.Lookup

/-!
# The roster

The thread list, the records of threads and the queue of submitters name the same threads: a thread
is listed exactly if it has a record that says that it started, and whoever waits for admission has
a record that says that it did not. Numbers that were not handed out yet have no record. This file
states the agreement and shows that every change of the state keeps it.
-/

namespace RoundScheduler.State

/-- Whether a thread started, if it has a record. -/
def started? (s : State) (t : ThreadId) : Option Bool := (s.record? t).map (·.started)

/-- The thread list, the records and the queue of submitters agree. -/
structure Roster (s : State) : Prop where
  /-- No thread has two records. -/
  keys_nodup : s.records.keys.Nodup
  /-- No thread is listed twice. -/
  list_nodup : s.threadList.Nodup
  /-- The listed threads are those whose record says that they started. -/
  mem_list_iff : ∀ t, t ∈ s.threadList ↔ s.started? t = some true
  /-- Threads with a record have a number that was handed out. -/
  fresh : ∀ t, (s.started? t).isSome → t.raw < s.nextThread.raw
  /-- Whoever waits for admission has a record and did not start. -/
  waiting : ∀ t ∈ s.admissionQueue, s.started? t = some false

variable {s s' : State} {t u : ThreadId} {l : LockId}

/-- A thread has a record exactly if it is known whether it started. -/
lemma isSome_record?_iff : (s.record? t).isSome ↔ (s.started? t).isSome := by
  simp [started?]

/-- Whoever is listed has a record and was started. -/
lemma Roster.exists_record (h : Roster s) (ht : t ∈ s.threadList) :
    ∃ r, s.record? t = some r ∧ r.started = true := by
  have hs : s.started? t = some true := (h.mem_list_iff t).mp ht
  simpa [started?] using hs

/-- Whoever has a record and was started is listed. -/
lemma Roster.mem_list (h : Roster s) {r : ThreadRecord} (hr : s.record? t = some r)
    (hs : r.started = true) : t ∈ s.threadList := by
  rw [h.mem_list_iff, started?, hr]
  simp [hs]

/-- A change that keeps the list, the queue, the numbering and who started keeps the roster. -/
lemma Roster.congr (h : Roster s) (hkeys : s'.records.keys = s.records.keys)
    (hlist : s'.threadList = s.threadList) (hqueue : s'.admissionQueue = s.admissionQueue)
    (hnext : s'.nextThread = s.nextThread) (hstarted : ∀ u, s'.started? u = s.started? u) :
    Roster s' where
  keys_nodup := hkeys ▸ h.keys_nodup
  list_nodup := hlist ▸ h.list_nodup
  mem_list_iff u := by rw [hlist, hstarted]; exact h.mem_list_iff u
  fresh u := by rw [hstarted, hnext]; exact h.fresh u
  waiting u := by rw [hqueue, hstarted]; exact h.waiting u

/-- A change that leaves the flag of the start leaves what is known of the start. -/
lemma started?_of_map {g : ThreadRecord → ThreadRecord} (h : s'.record? u = (s.record? u).map g)
    (hg : ∀ r, (g r).started = r.started) : s'.started? u = s.started? u := by
  rw [started?, h, started?, Option.map_map]
  congr 1
  funext r
  exact hg r

/-! ### Turns and locks -/

namespace Roster

/-- The flags of a round are no matter of the list. -/
lemma finish (h : Roster s) : Roster (s.finish t) :=
  h.congr (Table.keys_modify _ _ _) rfl rfl rfl fun _ => started?_of_map record?_finish fun _ => rfl

/-- To wait for a turn is no matter of the list. -/
lemma awaitTurn (h : Roster s) : Roster (s.awaitTurn t) :=
  h.congr (Table.keys_modify _ _ _) rfl rfl rfl fun _ =>
    started?_of_map record?_awaitTurn fun _ => rfl

/-- A turn leaves the list and the starts alone. -/
lemma afterTurn (h : Roster s) (slot : Slot) : Roster (s.afterTurn t slot) := by
  have hstarted : ∀ u, (s.afterTurn t slot).started? u = s.started? u := fun _ =>
    started?_of_map (record?_afterTurn slot) fun _ => rfl
  rw [afterTurn_eq] at hstarted ⊢
  exact h.congr (Table.keys_map _ _) rfl rfl rfl hstarted

/-- A thread that retires stays listed. -/
lemma afterRetirement (h : Roster s) (slot : Slot) : Roster (s.afterRetirement t slot) := by
  have hstarted : ∀ u, (s.afterRetirement t slot).started? u = s.started? u := fun _ =>
    started?_of_map (record?_afterRetirement slot) fun _ => rfl
  rw [afterRetirement_eq] at hstarted ⊢
  exact h.congr ((Table.keys_map _ _).trans (Table.keys_modify _ _ _)) rfl rfl rfl hstarted

/-- Configurations are no matter of the list. -/
lemma staging (h : Roster s) (p n : Nat) (c : RoundConfig) : Roster (s.staging t p n c) :=
  h.congr rfl rfl rfl rfl fun _ => rfl

/-- A grant is no matter of the list. -/
lemma grant (h : Roster s) : Roster (s.grant l t) :=
  h.congr rfl rfl rfl rfl fun _ => rfl

/-- A request that queues is no matter of the list. -/
lemma enqueue (h : Roster s) : Roster (s.enqueue l t) :=
  h.congr (Table.keys_modify _ _ _) rfl rfl rfl fun _ =>
    started?_of_map record?_enqueue fun _ => rfl

/-- Links to locks are no matter of the list. -/
lemma detach (h : Roster s) (ts : List ThreadId) : Roster (s.detach ts) :=
  h.congr (Table.keys_map _ _) rfl rfl rfl fun _ =>
    started?_of_map (record?_detach ts) fun _ => rfl

/-- A lock that is handed over is no matter of the list. -/
lemma handOver (h : Roster s) : Roster (s.handOver l t) :=
  h.congr (Table.keys_map _ _) rfl rfl rfl fun _ =>
    started?_of_map record?_handOver fun _ => rfl

/-- A release is no matter of the list. -/
lemma release (h : Roster s) : Roster (s.release l) := h.congr rfl rfl rfl rfl fun _ => rfl

/-- A request that is removed is no matter of the list. -/
lemma forget (h : Roster s) : Roster (s.forget l t) := h.congr rfl rfl rfl rfl fun _ => rfl

/-- A new lock is no matter of the list. -/
lemma registerLock (h : Roster s) : Roster s.registerLock := h.congr rfl rfl rfl rfl fun _ => rfl

/-- A dropped lock is no matter of the list. -/
lemma dropLock (h : Roster s) (hl : (s.lock? l).isSome) : Roster (s.dropLock l) := by
  rw [dropLock_eq hl]
  exact h.congr rfl rfl rfl rfl fun _ => rfl

/-! ### Rounds -/

/-- The end of a round prunes nobody yet. -/
lemma closeRound (h : Roster s) : Roster s.closeRound :=
  h.congr ((Table.keys_map _ _).trans (Table.keys_map _ _)) rfl rfl rfl fun _ =>
    started?_of_map record?_closeRound fun _ => rfl

/-- Whoever is chosen stays listed. -/
lemma choose (h : Roster s) : Roster (s.choose t) :=
  h.congr (Table.keys_modify _ _ _) rfl rfl rfl fun _ => started?_of_map record?_choose fun _ => rfl

/-- The record of a start is no matter of the list. -/
lemma recordStart (h : Roster s) (order : List Slot) : Roster (s.recordStart order) :=
  h.congr rfl rfl rfl rfl fun _ => rfl

/-- A start of a round removes the threads that are listed and retired, and nobody else. -/
lemma started?_beginRound (h : Roster s) :
    s.beginRound.started? u =
      if s.started? u = some true ∧ s.hasTerminated u then none else s.started? u := by
  have hmem := h.mem_list_iff u
  rw [started?, record?_beginRound h.keys_nodup]
  obtain hr | ⟨r, hr⟩ := Option.eq_none_or_eq_some (s.record? u)
  · simp [started?, hr]
  · have hstarted : s.started? u = some r.started := by simp [started?, hr]
    have hterminated : s.hasTerminated u = r.terminated := by simp [hasTerminated, hr]
    rw [hstarted] at hmem ⊢
    rw [hterminated, hr]
    cases hs : r.started <;> cases ht : r.terminated <;> simp_all [Option.filter]

/-- Pruning removes the same threads from the list and from the records. -/
lemma beginRound (h : Roster s) : Roster s.beginRound where
  keys_nodup := keys_nodup_beginRound h.keys_nodup
  list_nodup := threadList_beginRound ▸ h.list_nodup.filter _
  mem_list_iff u := by
    rw [threadList_beginRound, h.started?_beginRound, List.mem_filter, h.mem_list_iff]
    cases s.hasTerminated u <;> simp
  fresh u hu := by
    rw [nextThread_beginRound]
    rw [h.started?_beginRound] at hu
    split at hu
    · cases hu
    · exact h.fresh u hu
  waiting u hu := by
    rw [admissionQueue_beginRound] at hu
    split at hu
    · cases hu
    · simp [h.started?_beginRound, h.waiting u hu]

/-! ### Admission -/

/-- A new thread is known and not started. -/
lemma started?_enrol :
    s.enrol.started? u = if u = s.nextThread then some false else s.started? u := by
  rw [started?, record?_enrol, started?]
  split <;> rfl

/-- The next thread has no record yet. -/
lemma nextThread_unknown (h : Roster s) : s.started? s.nextThread = none := by
  cases hs : s.started? s.nextThread with
  | none => rfl
  | some b => exact absurd (h.fresh s.nextThread (by simp [hs])) (Nat.lt_irrefl _)

/-- A new thread is not listed before it is started. -/
lemma enrol (h : Roster s) : Roster s.enrol where
  keys_nodup := Table.nodup_keys_set h.keys_nodup _ _
  list_nodup := h.list_nodup
  mem_list_iff u := by
    have hnew := h.nextThread_unknown
    rw [started?_enrol]
    refine (h.mem_list_iff u).trans ?_
    split <;> simp_all
  fresh u hu := by
    rw [started?_enrol] at hu
    have hnext : s.enrol.nextThread.raw = s.nextThread.raw + 1 := rfl
    split at hu
    · next hu' => rw [hu', hnext]; exact Nat.lt_succ_self _
    · have := h.fresh u hu
      omega
  waiting u hu := by
    have hwaits := h.waiting u hu
    rw [started?_enrol]
    split
    · rfl
    · exact hwaits

/-- A thread that is not started may wait to be listed. -/
lemma awaitAdmission (h : Roster s) (ht : s.started? t = some false) :
    Roster (s.awaitAdmission t) where
  keys_nodup := h.keys_nodup
  list_nodup := h.list_nodup
  mem_list_iff := h.mem_list_iff
  fresh := h.fresh
  waiting u hu := by
    rcases List.mem_append.mp hu with hu | hu
    · exact h.waiting u hu
    · exact (List.mem_singleton.mp hu) ▸ ht

/-- A listed thread is started, and nobody else is. -/
lemma started?_list (w : Work) : (s.list t w).started? u =
    if u = t then (s.started? u).map fun _ => true else s.started? u := by
  rw [started?, record?_list, started?]
  cases s.record? u <;> split <;> simp_all

/-- A thread that was waiting for nothing is listed once, when it is started. -/
lemma list (h : Roster s) (ht : s.started? t = some false) (hq : t ∉ s.admissionQueue) (w : Work) :
    Roster (s.list t w) where
  keys_nodup := (Table.keys_modify s.records t _).symm ▸ h.keys_nodup
  list_nodup := by
    have hmem : t ∉ s.threadList := by simp [h.mem_list_iff, ht]
    have hdisj : ∀ a ∈ s.threadList, ∀ b ∈ [t], a ≠ b := by grind
    exact List.nodup_append.mpr ⟨h.list_nodup, by simp, hdisj⟩
  mem_list_iff u := by
    have hlist : (s.list t w).threadList = s.threadList ++ [t] := rfl
    rw [hlist, List.mem_append, h.mem_list_iff, List.mem_singleton, started?_list]
    split <;> simp_all
  fresh u hu := by
    rw [started?_list] at hu
    refine h.fresh u ?_
    split at hu <;> simp_all
  waiting u hu := by
    have hut : u ≠ t := fun he => hq (he ▸ hu)
    rw [started?_list, if_neg hut]
    exact h.waiting u hu

end Roster

end RoundScheduler.State
