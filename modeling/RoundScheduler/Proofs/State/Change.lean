import RoundScheduler.Proofs.Stretch

/-!
# What one move does to the state

Whatever a move of a system does, its effect on the coordination state is one of a few changes.
`Change` and `Arrival` list them with the facts under which they happen, and this file shows what
they have in common: a sound state stays sound, and a thread on whose behalf nobody acts sees its
own flags cleared at most, never set, and becomes the owner of a lock only from that lock's queue.
-/

namespace RoundScheduler.State

/-! ### The changes -/

/-- Whether a thread is out of steps, as far as it has a record. -/
def isFinished (s : State) (t : ThreadId) : Bool := (s.record? t).any (·.finished)

/-- Whether a thread waits for its turn, as far as it has a record. -/
def isWaiting (s : State) (t : ThreadId) : Bool := (s.record? t).any (·.waitingForTurn)

/-- Whether a thread has started and not retired. -/
def isAlive (s : State) (t : ThreadId) : Bool :=
  (s.record? t).any fun r => r.started && !r.terminated

/-- A change that a move can make to the state, arrivals apart, on behalf of the thread `w` if it is
one. Changes that may add a flag to the record of a thread, or give a lock to a thread that is in no
queue, are its own. -/
inductive Change (s : State) : Option ThreadId → State → Prop
  /-- Nothing changes. -/
  | stay {w : Option ThreadId} : Change s w s
  /-- A primary without steps is finished. -/
  | finish (t : ThreadId) (slot : Slot) (hslot : s.primaries[slot]? = some t)
    (hout : slot ∉ s.live.order) : Change s (some t) (s.finish t)
  /-- A primary with a later step waits. -/
  | awaitTurn (t : ThreadId) (slot : Slot) (hslot : s.primaries[slot]? = some t)
    (hin : slot ∈ s.live.order) (hhead : s.live.order.head? ≠ some slot) :
    Change s (some t) (s.awaitTurn t)
  /-- A primary takes the next step. -/
  | turn (t : ThreadId) (slot : Slot) (hslot : s.primaries[slot]? = some t)
    (hhead : s.live.order.head? = some slot) : Change s (some t) (s.afterTurn t slot)
  /-- A primary takes the next step and acquires a free lock. -/
  | grant (t : ThreadId) (slot : Slot) (l : LockId) (k : LockState)
    (hslot : s.primaries[slot]? = some t) (hhead : s.live.order.head? = some slot)
    (hk : s.lock? l = some k) (hfree : k.owner = none) :
    Change s (some t) ((s.afterTurn t slot).grant l t)
  /-- A primary takes the next step and joins the queue of an owned lock. -/
  | enqueue (t : ThreadId) (slot : Slot) (l : LockId) (k : LockState)
    (hslot : s.primaries[slot]? = some t) (hhead : s.live.order.head? = some slot)
    (hk : s.lock? l = some k) (howned : k.owner ≠ none) (hother : k.owner ≠ some t)
    (hlink : s.linkOf? t = none) : Change s (some t) ((s.afterTurn t slot).enqueue l t)
  /-- A primary takes the next step and stages a configuration. -/
  | stage (t : ThreadId) (slot : Slot) (n steps : Nat) (c : RoundConfig)
    (hslot : s.primaries[slot]? = some t) (hhead : s.live.order.head? = some slot)
    (hc : RoundConfig.roundRobin n steps = .ok c) :
    Change s (some t) ((s.afterTurn t slot).staging t n steps c)
  /-- A primary retires. -/
  | retire (t : ThreadId) (slot : Slot) (hslot : s.primaries[slot]? = some t)
    (hterminated : s.hasTerminated t = false) (hawake : s.isWaiting t = false) :
    Change s (some t) (s.afterRetirement t slot)
  /-- The first round begins. -/
  | bootstrap {w : Option ThreadId} (hround : s.round = 0) : Change s w s.beginRound
  /-- A round that is over closes, and the next one begins. -/
  | next {w : Option ThreadId} (hround : s.round ≠ 0)
    (hfull : s.live.primaries ≤ s.primaries.length)
    (hstuck : ∀ t ∈ s.primaries, s.canProgress t = false) : Change s w s.nextRound
  /-- A listed thread becomes a primary. -/
  | choose {w : Option ThreadId} (t : ThreadId) (hround : s.round ≠ 0)
    (hlen : s.primaries.length < s.live.primaries) (halive : s.isAlive t = true)
    (hnew : t ∉ s.primaries) : Change s w (s.choose t)
  /-- The start of a filled round is recorded. -/
  | start {w : Option ThreadId} (order : List Slot) (hround : s.round ≠ 0)
    (hfull : s.live.primaries ≤ s.primaries.length) : Change s w (s.recordStart order)
  /-- A thread is taken out of the queue that it is linked to. -/
  | unlink {w : Option ThreadId} (t : ThreadId) (l : LockId) (hlink : s.linkOf? t = some l) :
    Change s w (s.detach [t])
  /-- A thread is taken out of a queue that it is not linked to. -/
  | forget {w : Option ThreadId} (t : ThreadId) (l : LockId) (hlink : s.linkOf? t ≠ some l) :
    Change s w (s.forget l t)
  /-- A lock that nobody waits for is released. -/
  | release {w : Option ThreadId} (t : ThreadId) (l : LockId) (k : LockState)
    (hk : s.lock? l = some k) (howner : k.owner = some t) (hqueue : k.queue = []) :
    Change s w (s.release l)
  /-- A lock is handed to the first thread that waits for it. -/
  | handOver {w : Option ThreadId} (t : ThreadId) (l : LockId) (k : LockState) (next : ThreadId)
    (rest : List ThreadId) (hk : s.lock? l = some k) (howner : k.owner = some t)
    (hqueue : k.queue = next :: rest) : Change s w (s.handOver l next)
  /-- A lock is created. -/
  | newLock {w : Option ThreadId} : Change s w s.registerLock
  /-- A lock is dropped that nobody waits for. -/
  | dropLock {w : Option ThreadId} (l : LockId) (hl : (s.lock? l).isSome)
    (hunused : ∀ t, s.linkOf? t ≠ some l) : Change s w (s.dropLock l)

/-- A change by which a new thread arrives. -/
inductive Arrival (s : State) : State → Prop
  /-- It gets a number. -/
  | enrol : Arrival s s.enrol
  /-- It gets a number and waits for admission. -/
  | block : Arrival s (s.enrol.awaitAdmission s.nextThread)
  /-- It is listed. -/
  | list (t : ThreadId) (work : Work) (ht : s.started? t = some false)
    (hqueue : t ∉ s.admissionQueue) : Arrival s (s.list t work)

variable {s s' : State} {t u : ThreadId} {l : LockId}

/-! ### Soundness -/

/-- A turn leaves the links. -/
lemma linkOf?_afterTurn (slot : Slot) : (s.afterTurn t slot).linkOf? u = s.linkOf? u :=
  linkOf?_of_map (record?_afterTurn slot) fun _ => rfl

/-- The next step may be taken. -/
lemma Sound.afterTurn (h : Sound s) {slot : Slot} (hhead : s.live.order.head? = some slot) :
    Sound (s.afterTurn t slot) :=
  ⟨h.roster.afterTurn slot, h.seating.afterTurn hhead, h.queues.afterTurn slot⟩

/-- A round may begin once the flags and the queues are cleared. -/
lemma Sound.beginRound (hroster : Roster s) (hqueues : Queues s) (hclear : Cleared s) :
    Sound s.beginRound :=
  ⟨hroster.beginRound, hclear.seating_beginRound hroster.keys_nodup,
    hqueues.beginRound hclear hroster.keys_nodup⟩

/-- Whoever is alive has a record, was started and has not retired. -/
lemma exists_record_of_isAlive (h : s.isAlive t = true) :
    ∃ r, s.record? t = some r ∧ r.started = true ∧ r.terminated = false := by
  simpa [isAlive, Option.any_eq_true] using h

/-- The primaries are those whose records say so. -/
lemma Seating.primary_of_mem (h : Seating s) {r : ThreadRecord} (hr : s.record? t = some r) :
    r.primary = true ↔ t ∈ s.primaries := by
  rw [h.mem_iff, hr]
  simp

/-- Whoever is in a queue is a primary. -/
lemma Seating.mem_primaries_of_linked (h : Seating s) (hlink : s.linkOf? t = some l) :
    t ∈ s.primaries := by
  obtain ⟨r, hr, hlinked⟩ := linkOf?_eq_some_iff.mp hlink
  exact (h.primary_of_mem hr).mp ((h.truthful t r hr).primary (by simp [hlinked]))

/-- Every change keeps a sound state sound. -/
theorem Change.sound {w : Option ThreadId} (hc : Change s w s') (h : Sound s) : Sound s' := by
  cases hc with
  | stay => exact h
  | finish t slot hslot hout =>
    exact ⟨h.roster.finish, h.seating.finish hslot hout, h.queues.finish⟩
  | awaitTurn t slot hslot hin hhead =>
    exact ⟨h.roster.awaitTurn, h.seating.awaitTurn hslot hin hhead, h.queues.awaitTurn⟩
  | turn t slot hslot hhead => exact h.afterTurn hhead
  | grant t slot l k hslot hhead hk hfree =>
    have ht := h.afterTurn (t := t) hhead
    exact ⟨ht.roster.grant, ht.seating.grant,
      ht.queues.grant ((lock?_afterTurn slot).trans hk) hfree⟩
  | enqueue t slot l k hslot hhead hk howned hother hlink =>
    have ht := h.afterTurn (t := t) hhead
    have hprimaries : (s.afterTurn t slot).primaries = s.primaries := by rw [afterTurn_eq]
    obtain ⟨r, hr, hp⟩ := ht.seating.primary_of_slot (hprimaries ▸ hslot)
    have hfree : r.enqueued = none := by
      have := (linkOf?_afterTurn (u := t) (t := t) slot).trans hlink
      simpa [linkOf?, hr] using this
    have hseated : ∀ r', (s.afterTurn t slot).record? t = some r' → r'.primary = true :=
      fun r' hr' => Option.some_inj.mp (hr.symm.trans hr') ▸ hp
    exact ⟨ht.roster.enqueue, ht.seating.enqueue hseated,
      ht.queues.enqueue ((lock?_afterTurn slot).trans hk) hr hfree howned hother⟩
  | stage t slot n steps c hslot hhead hc =>
    have ht := h.afterTurn (t := t) hhead
    exact ⟨ht.roster.staging n steps c,
      ht.seating.staging n steps (RoundConfig.isRoundRobin_of_roundRobin hc),
      ht.queues.staging n steps c⟩
  | retire t slot hslot hterminated hawake =>
    have hr : ∀ r, s.record? t = some r → r.waitingForTurn = false := fun r hr => by
      simpa [isWaiting, hr] using hawake
    exact ⟨h.roster.afterRetirement slot, h.seating.afterRetirement hslot hr,
      h.queues.afterRetirement slot⟩
  | bootstrap hround =>
    exact Sound.beginRound h.roster h.queues (h.seating.cleared_of_unbegun hround)
  | next hround hfull hstuck =>
    exact Sound.beginRound h.roster.closeRound h.queues.closeRound
      (h.seating.closeRound_cleared h.roster)
  | choose t hround hlen halive hnew =>
    obtain ⟨r, hr, hs, -⟩ := exists_record_of_isAlive halive
    have hp : r.primary = false :=
      Bool.eq_false_iff.mpr (mt (h.seating.primary_of_mem hr).mp hnew)
    exact ⟨h.roster.choose, h.seating.choose hr hs hp hlen hround, h.queues.choose⟩
  | start order hround hfull =>
    exact ⟨h.roster.recordStart order, h.seating.recordStart order, h.queues.recordStart order⟩
  | unlink t l hlink => exact ⟨h.roster.detach [t], h.seating.detach [t], h.queues.detach [t]⟩
  | forget t l hlink => exact ⟨h.roster.forget, h.seating.forget, h.queues.forget hlink⟩
  | release t l k hk howner hqueue =>
    exact ⟨h.roster.release, h.seating.release, h.queues.release hk hqueue⟩
  | handOver t l k next rest hk howner hqueue =>
    exact ⟨h.roster.handOver, h.seating.handOver, h.queues.handOver hk (by simp [hqueue])⟩
  | newLock => exact ⟨h.roster.registerLock, h.seating.registerLock, h.queues.registerLock⟩
  | dropLock l hl hunused =>
    exact ⟨h.roster.dropLock hl, h.seating.dropLock hl, h.queues.dropLock hl hunused⟩

/-- An arrival keeps a sound state sound. -/
theorem Arrival.sound (ha : Arrival s s') (h : Sound s) : Sound s' := by
  cases ha with
  | enrol => exact ⟨h.roster.enrol, h.seating.enrol h.roster, h.queues.enrol h.roster⟩
  | block =>
    have hnew : s.enrol.started? s.nextThread = some false := by simp [Roster.started?_enrol]
    exact ⟨h.roster.enrol.awaitAdmission hnew, (h.seating.enrol h.roster).awaitAdmission,
      (h.queues.enrol h.roster).awaitAdmission⟩
  | list t w ht hqueue => exact ⟨h.roster.list ht hqueue w, h.seating.list w, h.queues.list w⟩

/-! ### What others see

A thread that does not act cannot be made to wait, to be finished or to retire, and it gets a lock
only if it is in the queue of that lock. -/

/-- The second record has no flag that keeps its thread from going on that the first one has not,
and its thread did not leave the list. -/
structure Calmer (r r' : ThreadRecord) : Prop where
  started : r.started = true → r'.started = true
  finished : r'.finished = true → r.finished = true
  waiting : r'.waitingForTurn = true → r.waitingForTurn = true
  terminated : r'.terminated = true → r.terminated = true
  linked : ∀ l, r'.enqueued = some l → r.enqueued = some l

/-- What the thread `u` sees of a change in which it does not act. -/
structure Calm (s s' : State) (u : ThreadId) : Prop where
  /-- Flags are cleared at most; a thread without a record has no flags. -/
  calmer : ∀ r', s'.record? u = some r' → Calmer ((s.record? u).getD {}) r'
  /-- Only retired threads lose their records. -/
  kept : ∀ r, s.record? u = some r → r.terminated = false → (s'.record? u).isSome
  /-- New locks come from their queues. -/
  owner : ∀ m k', s'.lock? m = some k' → k'.owner = some u →
    (∃ k, s.lock? m = some k ∧ k.owner = some u) ∨ s.linkOf? u = some m

/-- A record is as calm as itself. -/
lemma Calmer.refl (r : ThreadRecord) : Calmer r r := ⟨id, id, id, id, fun _ => id⟩

/-- Calmer than calmer is calmer. -/
lemma Calmer.trans {r r' r'' : ThreadRecord} (h : Calmer r r') (h' : Calmer r' r'') :
    Calmer r r'' where
  started := h'.started ∘ h.started
  finished := h.finished ∘ h'.finished
  waiting := h.waiting ∘ h'.waiting
  terminated := h.terminated ∘ h'.terminated
  linked l := h.linked l ∘ h'.linked l

/-- A change that only clears flags of `u` and gives it no lock is calm. -/
lemma Calm.of_map {g : ThreadRecord → ThreadRecord} (hrecord : s'.record? u = (s.record? u).map g)
    (hg : ∀ r, Calmer r (g r))
    (howner : ∀ m k', s'.lock? m = some k' → k'.owner = some u →
      (∃ k, s.lock? m = some k ∧ k.owner = some u) ∨ s.linkOf? u = some m) : Calm s s' u where
  calmer r' hr' := by
    obtain ⟨r, hr, rfl⟩ := Option.map_eq_some_iff.mp (hrecord.symm.trans hr')
    simpa [hr] using hg r
  kept r hr _ := by simp [hrecord, hr]
  owner := howner

/-- A change that leaves the owners of locks as they are gives nobody a lock. -/
lemma owner_of_map {f : LockState → LockState} {m : LockId} {k' : LockState}
    (hlock : s'.lock? m = (s.lock? m).map f) (hf : ∀ k, (f k).owner = k.owner)
    (hk' : s'.lock? m = some k') (howner : k'.owner = some u) :
    ∃ k, s.lock? m = some k ∧ k.owner = some u := by
  obtain ⟨k, hk, rfl⟩ := Option.map_eq_some_iff.mp (hlock.symm.trans hk')
  exact ⟨k, hk, (hf k).symm.trans howner⟩

/-- The start of a round is calm. -/
lemma calm_beginRound (h : Roster s) : Calm s s.beginRound u where
  calmer r' hr' := by
    rw [record?_beginRound h.keys_nodup] at hr'
    obtain ⟨r, hr, rfl⟩ := Option.map_eq_some_iff.mp hr'
    rw [(Option.filter_eq_some_iff.mp hr).1]
    exact ⟨id, id, id, id, fun _ => id⟩
  kept r hr hterminated := by simp [record?_beginRound h.keys_nodup, hr, hterminated, Option.filter]
  owner m k' hk' howner := .inl ⟨k', (lock?_beginRound (s := s)).symm.trans hk', howner⟩

/-- A calm change after one that only clears flags and leaves the owners of locks as they are. -/
lemma Calm.after_map {s₁ : State} {g : ThreadRecord → ThreadRecord}
    (h : Calm s₁ s' u) (hrecord : s₁.record? u = (s.record? u).map g) (hg : ∀ r, Calmer r (g r))
    (howner : ∀ m k₁, s₁.lock? m = some k₁ → ∃ k, s.lock? m = some k ∧ k.owner = k₁.owner) :
    Calm s s' u where
  calmer r' hr' := by
    have hcalmer := h.calmer r' hr'
    rw [hrecord] at hcalmer
    cases hr : s.record? u with
    | none => simpa [hr] using hcalmer
    | some r => exact (hg r).trans (by simpa [hr] using hcalmer)
  kept r hr hterminated := by
    refine h.kept (g r) (by simp [hrecord, hr]) ?_
    exact Bool.eq_false_iff.mpr (mt (hg r).terminated (by simp [hterminated]))
  owner m k' hk' howner' := by
    rcases h.owner m k' hk' howner' with ⟨k₁, hk₁, howner₁⟩ | hlink
    · obtain ⟨k, hk, heq⟩ := howner m k₁ hk₁
      exact .inl ⟨k, hk, heq.trans howner₁⟩
    · obtain ⟨r₁, hr₁, hlinked⟩ := linkOf?_eq_some_iff.mp hlink
      obtain ⟨r, hr, rfl⟩ := Option.map_eq_some_iff.mp (hrecord.symm.trans hr₁)
      exact .inr (linkOf?_eq_some_iff.mpr ⟨r, hr, (hg r).linked m hlinked⟩)

/-- The next round sets no flag. -/
lemma calm_nextRound (h : Roster s) : Calm s s.nextRound u := by
  refine (calm_beginRound h.closeRound).after_map record?_closeRound (fun r => ?_) ?_
  · constructor <;> grind
  · intro m k₁ hk₁
    obtain ⟨k, hk, rfl⟩ := Option.map_eq_some_iff.mp (lock?_closeRound.symm.trans hk₁)
    exact ⟨k, hk, rfl⟩

/-- Every change is calm for the threads that do not act. -/
theorem Change.calm {w : Option ThreadId} (hc : Change s w s') (h : Sound s) (hu : w ≠ some u) :
    Calm s s' u := by
  have hsame : ∀ {s' : State}, (∀ m, s'.lock? m = s.lock? m) → ∀ m k', s'.lock? m = some k' →
      k'.owner = some u → (∃ k, s.lock? m = some k ∧ k.owner = some u) ∨ s.linkOf? u = some m :=
    fun hlock m k' hk' howner => .inl ⟨k', (hlock m).symm.trans hk', howner⟩
  cases hc with
  | stay => exact .of_map Option.map_id'.symm .refl (hsame fun _ => rfl)
  | finish t slot hslot hout =>
    exact .of_map record?_finish (fun r => by constructor <;> grind) (hsame fun _ => rfl)
  | awaitTurn t slot hslot hin hhead =>
    exact .of_map record?_awaitTurn (fun r => by constructor <;> grind) (hsame fun _ => rfl)
  | turn t slot hslot hhead =>
    exact .of_map (record?_afterTurn slot) (fun r => by constructor <;> grind)
      (hsame fun _ => lock?_afterTurn slot)
  | grant t slot l k hslot hhead hk hfree =>
    have hrecord : ((s.afterTurn t slot).grant l t).record? u = _ := record?_afterTurn slot
    refine .of_map hrecord (fun r => by constructor <;> grind) fun m k' hk' howner => ?_
    rw [lock?_grant, lock?_afterTurn] at hk'
    obtain ⟨k, hk, rfl⟩ := Option.map_eq_some_iff.mp hk'
    grind
  | enqueue t slot l k hslot hhead hk howned hother hlink =>
    have hut : u ≠ t := fun he => hu (congrArg some he.symm)
    have hrecord : ((s.afterTurn t slot).enqueue l t).record? u =
        (s.afterTurn t slot).record? u := by
      simp [record?_enqueue, hut]
    refine .of_map (hrecord.trans (record?_afterTurn slot)) (fun r => by constructor <;> grind)
      fun m k' hk' howner => ?_
    rw [lock?_enqueue, lock?_afterTurn] at hk'
    obtain ⟨k, hk, rfl⟩ := Option.map_eq_some_iff.mp hk'
    exact .inl ⟨k, hk, howner⟩
  | stage t slot n steps c hslot hhead hc =>
    have hrecord : ((s.afterTurn t slot).staging t n steps c).record? u = _ :=
      record?_afterTurn slot
    exact .of_map hrecord (fun r => by constructor <;> grind) (hsame fun _ => lock?_afterTurn slot)
  | retire t slot hslot hterminated hawake =>
    refine .of_map (record?_afterRetirement slot) (fun r => by constructor <;> grind)
      (hsame fun _ => ?_)
    rw [afterRetirement_eq]
    rfl
  | bootstrap hround => exact calm_beginRound h.roster
  | next hround hfull hstuck => exact calm_nextRound h.roster
  | choose t hround hlen halive hnew =>
    exact .of_map record?_choose (fun r => by constructor <;> grind) (hsame fun _ => rfl)
  | start order hround hfull => exact .of_map Option.map_id'.symm .refl (hsame fun _ => rfl)
  | unlink t l hlink =>
    exact .of_map (record?_detach [t]) (fun r => by constructor <;> grind) fun m k' hk' howner =>
      .inl (owner_of_map (lock?_detach [t]) (fun _ => rfl) hk' howner)
  | forget t l hlink =>
    exact .of_map Option.map_id'.symm .refl fun m k' hk' howner =>
      .inl (owner_of_map lock?_forget (fun _ => rfl) hk' howner)
  | release t l k hk howner hqueue =>
    have hrecord : (s.release l).record? u = _ := Option.map_id'.symm
    refine .of_map hrecord .refl fun m k' hk' howner' => ?_
    obtain ⟨k, hk, rfl⟩ := Option.map_eq_some_iff.mp (lock?_release.symm.trans hk')
    grind
  | handOver t l k next rest hk howner hqueue =>
    refine .of_map record?_handOver (fun r => by constructor <;> grind) fun m k' hk' howner' => ?_
    obtain ⟨k₀, hk₀, rfl⟩ := Option.map_eq_some_iff.mp (lock?_handOver.symm.trans hk')
    have hnext : s.linkOf? next = some l := h.queues.linkOf?_of_head hk hqueue
    grind
  | newLock =>
    refine .of_map Option.map_id'.symm .refl fun m k' hk' howner => ?_
    rw [lock?_registerLock] at hk'
    grind
  | dropLock l hl hunused =>
    refine .of_map ?_ .refl fun m k' hk' howner => ?_
    · rw [dropLock_eq hl]
      exact Option.map_id'.symm
    · rw [lock?_dropLock hl] at hk'
      grind

/-- A new thread sets no flag of the others. -/
lemma calm_enrol (h : Roster s) : Calm s s.enrol u where
  calmer r' hr' := by
    rw [record?_enrol] at hr'
    split at hr'
    · next hu =>
      have hnone : s.record? u = none := by
        simpa [hu, started?] using h.nextThread_unknown
      cases hr'
      simpa [hnone] using Calmer.refl {}
    · simpa [hr'] using Calmer.refl r'
  kept r hr _ := by
    rw [record?_enrol]
    split
    · rfl
    · simp [hr]
  owner m k' hk' howner := .inl ⟨k', hk', howner⟩

/-- Arrivals are calm for everybody. -/
theorem Arrival.calm (ha : Arrival s s') (h : Sound s) : Calm s s' u := by
  cases ha with
  | enrol => exact calm_enrol h.roster
  | block =>
    have hcalm := calm_enrol (u := u) h.roster
    exact ⟨hcalm.calmer, hcalm.kept, hcalm.owner⟩
  | list t work ht hqueue =>
    exact .of_map (record?_list work) (fun r => by constructor <;> grind)
      fun m k' hk' howner => .inl ⟨k', hk', howner⟩

/-! ### What stays of what a thread knows of itself -/

/-- A flag that is clear in new records, and that a calm change does not set, was set before. -/
lemma Calm.flag (h : Calm s s' u) {f : ThreadRecord → Bool} (hdefault : f {} = false)
    (hf : ∀ r r', Calmer r r' → f r' = true → f r = true) (hu : (s'.record? u).any f = true) :
    (s.record? u).any f = true := by
  obtain ⟨r', hr', hset⟩ := (Option.any_eq_true _ _).mp hu
  have hset := hf _ r' (h.calmer r' hr') hset
  cases hr : s.record? u with
  | none => simp [hr, hdefault] at hset
  | some r => simpa [hr] using hset

/-- Nobody finishes in a change of somebody else. -/
lemma Calm.finished (h : Calm s s' u) : s'.isFinished u = true → s.isFinished u = true :=
  h.flag rfl fun _ _ hc => hc.finished

/-- Nobody is told to wait for its turn in a change of somebody else. -/
lemma Calm.waiting (h : Calm s s' u) : s'.isWaiting u = true → s.isWaiting u = true :=
  h.flag rfl fun _ _ hc => hc.waiting

/-- Nobody is put in a queue in a change of somebody else. -/
lemma Calm.linked (h : Calm s s' u) (hl : s'.linkOf? u = some l) : s.linkOf? u = some l := by
  obtain ⟨r', hr', hlinked⟩ := linkOf?_eq_some_iff.mp hl
  have hlinked := (h.calmer r' hr').linked l hlinked
  cases hr : s.record? u with
  | none => simp [hr] at hlinked
  | some r => exact linkOf?_eq_some_iff.mpr ⟨r, hr, by simpa [hr] using hlinked⟩

/-- A record that is not retired stays, with fewer flags at most. -/
lemma Calm.exists_calmer (h : Calm s s' u) {r : ThreadRecord} (hr : s.record? u = some r)
    (hterminated : r.terminated = false) : ∃ r', s'.record? u = some r' ∧ Calmer r r' := by
  obtain ⟨r', hr'⟩ := Option.isSome_iff_exists.mp (h.kept r hr hterminated)
  exact ⟨r', hr', by simpa [hr] using h.calmer r' hr'⟩

/-- Nobody dies in a change of somebody else. -/
lemma Calm.alive (h : Calm s s' u) (hu : s.isAlive u = true) : s'.isAlive u = true := by
  obtain ⟨r, hr, hs, hterminated⟩ := exists_record_of_isAlive hu
  obtain ⟨r', hr', hcalmer⟩ := h.exists_calmer hr hterminated
  have hs' := hcalmer.started hs
  have ht' := mt hcalmer.terminated (by simp [hterminated])
  simp [isAlive, hr', hs', ht']

/-- Nobody is kept from its turns by a change of somebody else. -/
lemma Calm.canProgress (h : Calm s s' u) (hu : s.canProgress u = true) :
    s'.canProgress u = true := by
  obtain ⟨r, hr, hp⟩ := (Option.any_eq_true _ _).mp hu
  simp only [ThreadRecord.canProgress, Bool.and_eq_true, Bool.not_eq_true'] at hp
  obtain ⟨⟨⟨hterminated, hlinked⟩, hfinished⟩, hwaiting⟩ := hp
  obtain ⟨r', hr', hcalmer⟩ := h.exists_calmer hr hterminated
  have ht' := mt hcalmer.terminated (by simp [hterminated])
  have hf' := mt hcalmer.finished (by simp [hfinished])
  have hw' := mt hcalmer.waiting (by simp [hwaiting])
  have hl' : r'.enqueued = none := by
    cases hl : r'.enqueued with
    | none => rfl
    | some l => simp [hcalmer.linked l hl] at hlinked
  simp [State.canProgress, ThreadRecord.canProgress, hr', ht', hf', hw', hl']

/-! ### Who is alive -/

/-- Nobody comes to life in a change that leaves the starts and undoes no retirement. -/
lemma alive_of_map {g : ThreadRecord → ThreadRecord} (hrecord : s'.record? u = (s.record? u).map g)
    (hg : ∀ r, (g r).started = r.started ∧ (r.terminated = true → (g r).terminated = true))
    (hu : s'.isAlive u = true) : s.isAlive u = true := by
  obtain ⟨r', hr', hstarted, hterminated⟩ := exists_record_of_isAlive hu
  obtain ⟨r, hr, rfl⟩ := Option.map_eq_some_iff.mp (hrecord.symm.trans hr')
  have hnot := mt (hg r).2 (by simp [hterminated])
  simp [isAlive, hr, (hg r).1.symm.trans hstarted, hnot]

/-- Nobody comes to life when a round begins. -/
lemma alive_of_beginRound (h : Roster s) (hu : s.beginRound.isAlive u = true) :
    s.isAlive u = true := by
  obtain ⟨r', hr', hstarted, hterminated⟩ := exists_record_of_isAlive hu
  obtain ⟨r, hr, rfl⟩ :=
    Option.map_eq_some_iff.mp ((record?_beginRound h.keys_nodup).symm.trans hr')
  have hr := (Option.filter_eq_some_iff.mp hr).1
  have hstarted : r.started = true := hstarted
  have hterminated : r.terminated = false := hterminated
  simp [isAlive, hr, hstarted, hterminated]

/-- Nobody starts, and nobody who retired comes back, by a change. -/
theorem Change.alive {w : Option ThreadId} (hc : Change s w s') (h : Sound s)
    (hu : s'.isAlive u = true) : s.isAlive u = true := by
  cases hc with
  | finish => exact alive_of_map record?_finish (fun _ => ⟨rfl, id⟩) hu
  | awaitTurn => exact alive_of_map record?_awaitTurn (fun _ => ⟨rfl, id⟩) hu
  | turn t slot | grant t slot | stage t slot =>
    exact alive_of_map (record?_afterTurn slot) (fun _ => ⟨rfl, id⟩) hu
  | enqueue t slot =>
    exact alive_of_map (record?_afterTurn slot) (fun _ => ⟨rfl, id⟩)
      (alive_of_map record?_enqueue (fun _ => ⟨rfl, id⟩) hu)
  | retire t slot =>
    exact alive_of_map (record?_afterRetirement slot) (fun r => ⟨rfl, fun hr => by simp [hr]⟩) hu
  | bootstrap => exact alive_of_beginRound h.roster hu
  | next =>
    exact alive_of_map record?_closeRound (fun _ => ⟨rfl, id⟩)
      (alive_of_beginRound h.roster.closeRound hu)
  | choose => exact alive_of_map record?_choose (fun _ => ⟨rfl, id⟩) hu
  | unlink t => exact alive_of_map (record?_detach [t]) (fun _ => ⟨rfl, id⟩) hu
  | handOver => exact alive_of_map record?_handOver (fun _ => ⟨rfl, id⟩) hu
  | dropLock l hl =>
    rw [dropLock_eq hl] at hu
    exact hu
  | _ => exact hu

/-- Numbers are handed out to new threads only. -/
lemma Change.nextThread_eq {w : Option ThreadId} (hc : Change s w s') :
    s'.nextThread = s.nextThread := by
  cases hc with
  | turn t slot | grant t slot | enqueue t slot | stage t slot =>
    exact nextThread_afterTurn slot
  | retire t slot => exact nextThread_afterRetirement slot
  | bootstrap => exact nextThread_beginRound
  | next => exact nextThread_beginRound (s := s.closeRound)
  | dropLock l hl => rw [dropLock_eq hl]
  | _ => rfl

end RoundScheduler.State
