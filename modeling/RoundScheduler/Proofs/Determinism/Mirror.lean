import RoundScheduler.Proofs.Determinism.Course
import RoundScheduler.Proofs.State.Events

/-!
# The course of a state

A course mirrors a state if both agree on the round, on who is listed and who retired, on the queues
and the owners of the locks, and on what was recorded. What a course keeps apart from that, the
routines and how far the round is filled, does not show in the state. This file goes through the
changes of a state and says which course mirrors the result.
-/

namespace RoundScheduler

open Function State

/-- A course agrees with a state. -/
structure Course.Mirrors (c : Course) (s : State) : Prop where
  round : c.round = s.round
  roster : c.roster = s.threadList
  primaries : c.primaries = s.primaries
  live : c.live = s.live
  staged : c.staged = s.staged
  retired : ∀ t, c.retired t = s.hasTerminated t
  link : ∀ t, c.desk.link t = s.linkOf? t
  owner : ∀ l k, s.lock? l = some k → c.desk.owner l = k.owner
  queue : ∀ l k, s.lock? l = some k → c.desk.queue l = k.queue
  turns : c.turns = s.events.filterMap Event.turn?
  starts : c.starts = s.events.filterMap Event.roundStart?
  grants : ∀ l, c.desk.grants l = s.events.filterMap (Event.grant? l)

namespace Course.Mirrors

variable {c : Course} {s s' : State} {t : ThreadId} {l : LockId} {slot : Slot}

/-- A change that leaves the flag of retirement leaves those who retired. -/
lemma hasTerminated_of_map {g : ThreadRecord → ThreadRecord}
    (h : s'.record? t = (s.record? t).map g) (hg : ∀ r, (g r).terminated = r.terminated) :
    s'.hasTerminated t = s.hasTerminated t := by
  simp [hasTerminated, h, Option.any_map, hg]

/-- A change that touches nothing of the course is not noticed. -/
lemma keep (h : c.Mirrors s) (hround : s'.round = s.round) (hlist : s'.threadList = s.threadList)
    (hprimaries : s'.primaries = s.primaries) (hlive : s'.live = s.live)
    (hstaged : s'.staged = s.staged) (hterminated : ∀ t, s'.hasTerminated t = s.hasTerminated t)
    (hlink : ∀ t, s'.linkOf? t = s.linkOf? t) (hlock : ∀ l, s'.lock? l = s.lock? l)
    (hevents : s'.events = s.events) : c.Mirrors s' where
  round := h.round.trans hround.symm
  roster := h.roster.trans hlist.symm
  primaries := h.primaries.trans hprimaries.symm
  live := h.live.trans hlive.symm
  staged := h.staged.trans hstaged.symm
  retired t := (h.retired t).trans (hterminated t).symm
  link t := (h.link t).trans (hlink t).symm
  owner l k hk := h.owner l k (hlock l ▸ hk)
  queue l k hk := h.queue l k (hlock l ▸ hk)
  turns := hevents ▸ h.turns
  starts := hevents ▸ h.starts
  grants l := hevents ▸ h.grants l

/-! ### Changes that are not noticed -/

/-- To finish is not noticed. -/
lemma finish (h : c.Mirrors s) (t : ThreadId) : c.Mirrors (s.finish t) :=
  h.keep rfl rfl rfl rfl rfl (fun _ => hasTerminated_of_map record?_finish fun _ => rfl)
    (fun _ => linkOf?_of_map record?_finish fun _ => rfl) (fun _ => rfl) rfl

/-- To wait for a turn is not noticed. -/
lemma awaitTurn (h : c.Mirrors s) (t : ThreadId) : c.Mirrors (s.awaitTurn t) :=
  h.keep rfl rfl rfl rfl rfl (fun _ => hasTerminated_of_map record?_awaitTurn fun _ => rfl)
    (fun _ => linkOf?_of_map record?_awaitTurn fun _ => rfl) (fun _ => rfl) rfl

/-- A new thread is not noticed before it is listed. -/
lemma enrol (h : c.Mirrors s) (hroster : Roster s) : c.Mirrors s.enrol := by
  have hnone : s.record? s.nextThread = none := by
    simpa [started?] using hroster.nextThread_unknown
  refine h.keep rfl rfl rfl rfl rfl (fun t => ?_) (fun t => ?_) (fun _ => rfl) rfl
  · rw [hasTerminated, record?_enrol, hasTerminated]
    split
    · next ht => simp [ht, hnone]
    · rfl
  · rw [linkOf?, record?_enrol, linkOf?]
    split
    · next ht => simp [ht, hnone]
    · rfl

/-- A submitter that waits is not noticed. -/
lemma awaitAdmission (h : c.Mirrors s) (t : ThreadId) : c.Mirrors (s.awaitAdmission t) :=
  h.keep rfl rfl rfl rfl rfl (fun _ => rfl) (fun _ => rfl) (fun _ => rfl) rfl

/-- The routines do not show in the state. -/
lemma pass (h : c.Mirrors s) (t : ThreadId) (v : Verdict) :
    { c with desk := c.desk.pass t v }.Mirrors s :=
  { h with }

/-! ### Changes of the round -/

/-- A thread that is listed joins the roster. -/
lemma list (h : c.Mirrors s) (w : Work) : c.list.Mirrors (s.list ⟨c.listed⟩ w) where
  round := h.round
  roster := congrArg (· ++ [_]) h.roster
  primaries := h.primaries
  live := h.live
  staged := h.staged
  retired t := (h.retired t).trans
    (hasTerminated_of_map (record?_list w) fun _ => rfl).symm
  link t := (h.link t).trans (linkOf?_of_map (record?_list w) fun _ => rfl).symm
  owner := h.owner
  queue := h.queue
  turns := (events_list (s := s) w).symm ▸ h.turns
  starts := (events_list (s := s) w).symm ▸ h.starts
  grants l := (events_list (s := s) w).symm ▸ h.grants l

/-- An eligible thread that is looked at becomes a primary. -/
lemma choose (h : c.Mirrors s) {eligible : ThreadId → Bool} (ht : eligible t = true)
    (index : Nat) (plan : RoundConfig) : (c.look t eligible index plan).Mirrors (s.choose t) where
  round := h.round
  roster := h.roster
  primaries := by
    simp only [Course.look, ht, if_true, h.primaries]
    rfl
  live := h.live
  staged := h.staged
  retired t := (h.retired t).trans (hasTerminated_of_map record?_choose fun _ => rfl).symm
  link t := (h.link t).trans (linkOf?_of_map record?_choose fun _ => rfl).symm
  owner := h.owner
  queue := h.queue
  turns := h.turns
  starts := h.starts
  grants := h.grants

/-- An ineligible thread that is looked at is passed over. -/
lemma skip (h : c.Mirrors s) {eligible : ThreadId → Bool} (ht : eligible t = false)
    (index : Nat) (plan : RoundConfig) : (c.look t eligible index plan).Mirrors s :=
  { h with primaries := by simpa [Course.look, ht] using h.primaries }

/-- A round that is full is recorded as started. -/
lemma fill (h : c.Mirrors s) (plan : RoundConfig) :
    (c.fill plan).Mirrors (s.recordStart plan.order) where
  round := h.round
  roster := h.roster
  primaries := h.primaries
  live := h.live
  staged := h.staged
  retired := h.retired
  link := h.link
  owner := h.owner
  queue := h.queue
  turns := by simp [Course.fill, h.turns, Event.turn?]
  starts := by simp [Course.fill, h.starts, Event.roundStart?, h.round, h.primaries]
  grants l := by simp [Course.fill, h.grants, Event.grant?]

/-- The end of a round empties its slots and takes its primaries out of the queues. -/
lemma closeRound (h : c.Mirrors s) (hs : s.Sound) :
    { c with primaries := [], desk := c.desk.clear }.Mirrors s.closeRound where
  round := h.round
  roster := h.roster
  primaries := rfl
  live := h.live
  staged := h.staged
  retired t := (h.retired t).trans (hasTerminated_of_map record?_closeRound fun _ => rfl).symm
  link t := by
    have hclear := (hs.seating.closeRound_cleared hs.roster).clear t
    cases hr : s.closeRound.record? t with
    | none => simp [Desk.clear, linkOf?, hr]
    | some r => simp [Desk.clear, linkOf?, hr, (hclear r hr).2.2.2]
  owner l k' hk' := by
    obtain ⟨k, hk, rfl⟩ := Option.map_eq_some_iff.mp (lock?_closeRound.symm.trans hk')
    exact h.owner l k hk
  queue l k' hk' := by
    obtain ⟨k, hk, rfl⟩ := Option.map_eq_some_iff.mp (lock?_closeRound.symm.trans hk')
    have hall : ∀ t ∈ k.queue, t ∈ s.primaries ∧ s.linkOf? t = some l := by
      intro t ht
      have hlink := (hs.queues.linked t l).mpr ⟨k, hk, ht⟩
      exact ⟨hs.seating.mem_primaries_of_linked hlink, hlink⟩
    exact (List.filter_eq_nil_iff.mpr fun t ht => by simp [hall t ht]).symm
  turns := h.turns
  starts := h.starts
  grants := h.grants

/-- A round begins with nobody in a queue and nobody retired. -/
lemma beginRound (h : c.Mirrors s) (hroster : Roster s) (hqueues : Queues s)
    (hcleared : Cleared s) : c.nextRound.Mirrors s.beginRound := by
  have hback : ∀ t r', s.beginRound.record? t = some r' →
      r'.terminated = false ∧ r'.enqueued = none := by
    intro t r' hr'
    obtain ⟨r, hr, rfl⟩ :=
      Option.map_eq_some_iff.mp ((record?_beginRound hroster.keys_nodup).symm.trans hr')
    obtain ⟨hr, hkept⟩ := Option.filter_eq_some_iff.mp hr
    refine ⟨?_, (hcleared.clear t r hr).2.2.2⟩
    cases hterminated : r.terminated with
    | false => rfl
    | true => simp [hterminated, hcleared.listed t r hr hterminated] at hkept
  constructor
  case round => simp [Course.nextRound, h.round]
  case roster => simp only [Course.nextRound, threadList_beginRound, h.roster, h.retired]
  case primaries => simp [Course.nextRound]
  case live => simp [Course.nextRound, h.staged]
  case staged => simp [Course.nextRound, h.staged]
  case retired =>
    intro t
    cases hr : s.beginRound.record? t with
    | none => simp [Course.nextRound, hasTerminated, hr]
    | some r => simp [Course.nextRound, hasTerminated, hr, (hback t r hr).1]
  case link =>
    intro t
    cases hr : s.beginRound.record? t with
    | none => simp [Course.nextRound, Desk.clear, linkOf?, hr]
    | some r => simp [Course.nextRound, Desk.clear, linkOf?, hr, (hback t r hr).2]
  case owner => exact fun l k hk => h.owner l k (lock?_beginRound.symm.trans hk)
  case queue =>
    intro l k hk
    have hk : s.lock? l = some k := lock?_beginRound.symm.trans hk
    have hnobody : ∀ t, t ∉ k.queue := by
      intro t ht
      obtain ⟨r, hr, hl⟩ := linkOf?_eq_some_iff.mp ((hqueues.linked t l).mpr ⟨k, hk, ht⟩)
      simp [(hcleared.clear t r hr).2.2.2] at hl
    exact (List.eq_nil_iff_forall_not_mem.mpr hnobody).symm
  case turns => simpa [Course.nextRound] using h.turns
  case starts => simpa [Course.nextRound] using h.starts
  case grants => simpa [Course.nextRound, Desk.clear] using h.grants

/-- The first round begins as the next one does: there is nobody to take out of a queue. -/
lemma firstRound (h : c.Mirrors s) (hs : s.Sound) (hround : s.round = 0) :
    c.nextRound.Mirrors s.beginRound :=
  h.beginRound hs.roster hs.queues (hs.seating.cleared_of_unbegun hround)

/-- The next round begins with those who did not retire. -/
lemma nextRound (h : c.Mirrors s) (hs : s.Sound) : c.nextRound.Mirrors s.nextRound :=
  (h.closeRound hs).beginRound hs.roster.closeRound hs.queues.closeRound
    (hs.seating.closeRound_cleared hs.roster)

/-! ### Changes of threads and locks -/

/-- A turn consumes a step and is recorded. -/
lemma takeTurn (h : c.Mirrors s) (t : ThreadId) (slot : Slot) :
    { c with live := c.live.consume, turns := c.turns ++ [(c.round, t, slot)] }.Mirrors
      (s.afterTurn t slot) where
  round := by simpa using h.round
  roster := by simpa using h.roster
  primaries := by simpa using h.primaries
  live := by simp [h.live]
  staged := by simpa using h.staged
  retired u := (h.retired u).trans
    (hasTerminated_of_map (record?_afterTurn slot) fun _ => rfl).symm
  link u := (h.link u).trans (linkOf?_afterTurn slot).symm
  owner l k hk := h.owner l k (by simpa using hk)
  queue l k hk := h.queue l k (by simpa using hk)
  turns := by simp [h.turns, h.round, Event.turn?]
  starts := by simp [h.starts, Event.roundStart?]
  grants l := by simp [h.grants, Event.grant?]

/-- A retirement strips the slot and leaves the desk alone. -/
lemma retire (h : c.Mirrors s) {t : ThreadId} (hr : (s.record? t).isSome) (slot : Slot) :
    (c.act t (.retire slot)).Mirrors (s.afterRetirement t slot) where
  round := by simpa using h.round
  roster := by simpa using h.roster
  primaries := by simpa using h.primaries
  live := by simp [Course.act, h.live]
  staged := by simpa [Course.act] using h.staged
  retired u := by
    obtain ⟨r, hr⟩ := Option.isSome_iff_exists.mp hr
    by_cases hut : u = t
    · subst hut
      simp [Course.act, hasTerminated, record?_afterRetirement, hr]
    · rw [Course.retired_act_of_ne hut, h.retired, hasTerminated, hasTerminated,
        record?_afterRetirement]
      simp [hut, Option.any_map]
  link u := (h.link u).trans (linkOf?_of_map (record?_afterRetirement slot) fun _ => rfl).symm
  owner l k hk := h.owner l k (by simpa using hk)
  queue l k hk := h.queue l k (by simpa using hk)
  turns := by simp [Course.act, h.turns, Event.turn?]
  starts := by simp [h.starts, Event.roundStart?]
  grants l := by simp [Course.act, h.grants, Event.grant?]

/-- A grant makes an owner and is recorded. -/
lemma acquire (h : c.Mirrors s) (t : ThreadId) (l : LockId) :
    { c with desk := c.desk.acquire t l }.Mirrors (s.grant l t) where
  round := h.round
  roster := h.roster
  primaries := h.primaries
  live := h.live
  staged := h.staged
  retired := h.retired
  link := h.link
  owner m k' hk' := by
    obtain ⟨k, hk, rfl⟩ := Option.map_eq_some_iff.mp (lock?_grant.symm.trans hk')
    have howner := h.owner m k hk
    simp only [Desk.acquire, update_apply, Desk.pass]
    grind
  queue m k' hk' := by
    obtain ⟨k, hk, rfl⟩ := Option.map_eq_some_iff.mp (lock?_grant.symm.trans hk')
    exact h.queue m k hk
  turns := by simp [h.turns, Event.turn?]
  starts := by simp [h.starts, Event.roundStart?]
  grants m := by
    by_cases hml : m = l
    · subst hml
      simp [Desk.acquire, h.grants, Event.grant?]
    · simp [Desk.acquire, Desk.pass, hml, h.grants, Event.grant?, Ne.symm hml]

/-- A request that queues stands last in the queue of the lock. -/
lemma await (h : c.Mirrors s) {t : ThreadId} (hr : (s.record? t).isSome) (l : LockId) :
    { c with desk := c.desk.await t l }.Mirrors (s.enqueue l t) where
  round := h.round
  roster := h.roster
  primaries := h.primaries
  live := h.live
  staged := h.staged
  retired u := (h.retired u).trans (hasTerminated_of_map record?_enqueue fun _ => rfl).symm
  link u := by
    obtain ⟨r, hr⟩ := Option.isSome_iff_exists.mp hr
    by_cases hut : u = t
    · subst hut
      simp [Desk.await, linkOf?, record?_enqueue, hr]
    · have hlink := h.link u
      simp only [Desk.await, update_of_ne hut, hlink, linkOf?, record?_enqueue, hut, if_false]
      cases s.record? u <;> rfl
  owner m k' hk' := by
    obtain ⟨k, hk, rfl⟩ := Option.map_eq_some_iff.mp (lock?_enqueue.symm.trans hk')
    exact h.owner m k hk
  queue m k' hk' := by
    obtain ⟨k, hk, rfl⟩ := Option.map_eq_some_iff.mp (lock?_enqueue.symm.trans hk')
    have hqueue := h.queue m k hk
    simp only [Desk.await, update_apply]
    grind
  turns := h.turns
  starts := h.starts
  grants := h.grants

/-- A request changes the staged configuration. -/
lemma stage (h : c.Mirrors s) (t : ThreadId) (n steps : Nat) (rounds : RoundConfig) :
    { c with staged := rounds }.Mirrors (s.staging t n steps rounds) where
  round := h.round
  roster := h.roster
  primaries := h.primaries
  live := h.live
  staged := rfl
  retired := h.retired
  link := h.link
  owner := h.owner
  queue := h.queue
  turns := by simp [h.turns, Event.turn?]
  starts := by simp [h.starts, Event.roundStart?]
  grants l := by simp [h.grants, Event.grant?]

/-- A release leaves the lock without an owner. -/
lemma release (h : c.Mirrors s) (t : ThreadId) (l : LockId) :
    { c with desk := c.desk.release t l }.Mirrors (s.release l) where
  round := h.round
  roster := h.roster
  primaries := h.primaries
  live := h.live
  staged := h.staged
  retired := h.retired
  link := h.link
  owner m k' hk' := by
    obtain ⟨k, hk, rfl⟩ := Option.map_eq_some_iff.mp (lock?_release.symm.trans hk')
    have howner := h.owner m k hk
    simp only [Desk.release, update_apply, Desk.pass]
    grind
  queue m k' hk' := by
    obtain ⟨k, hk, rfl⟩ := Option.map_eq_some_iff.mp (lock?_release.symm.trans hk')
    exact h.queue m k hk
  turns := h.turns
  starts := h.starts
  grants := h.grants

/-- A lock that is handed over goes to the head of its queue, which is recorded. -/
lemma handOver (h : c.Mirrors s) (hqueues : Queues s) {k : LockState} {next : ThreadId}
    {rest : List ThreadId} (hk : s.lock? l = some k) (hqueue : k.queue = next :: rest)
    (t : ThreadId) :
    { c with desk := c.desk.handOver t l next rest }.Mirrors (s.handOver l next) where
  round := h.round
  roster := h.roster
  primaries := h.primaries
  live := h.live
  staged := h.staged
  retired u := (h.retired u).trans (hasTerminated_of_map record?_handOver fun _ => rfl).symm
  link u := by
    by_cases hu : u = next
    · subst hu
      simp only [Desk.handOver, update_self, linkOf?, record?_handOver]
      cases s.record? u <;> simp
    · have hlink := h.link u
      simp only [Desk.handOver, update_of_ne hu, hlink, linkOf?, record?_handOver]
      cases s.record? u <;> simp [hu]
  owner m k' hk' := by
    obtain ⟨k₀, hk₀, rfl⟩ := Option.map_eq_some_iff.mp (lock?_handOver.symm.trans hk')
    have howner := h.owner m k₀ hk₀
    simp only [Desk.handOver, Desk.acquire, update_apply, Desk.pass]
    grind
  queue m k' hk' := by
    obtain ⟨k₀, hk₀, rfl⟩ := Option.map_eq_some_iff.mp (lock?_handOver.symm.trans hk')
    have hold := h.queue m k₀ hk₀
    have hlink := hqueues.linkOf?_of_head hk hqueue
    by_cases hml : m = l
    · subst hml
      cases hk.symm.trans hk₀
      have hnodup := hqueues.nodup m k hk
      rw [hqueue, List.nodup_cons] at hnodup
      have hrest : ∀ u ∈ rest, u ≠ next := fun u hu he => hnodup.1 (he ▸ hu)
      simp only [Desk.handOver, update_self, hqueue]
      rw [List.filter_cons_of_neg (by simpa using hlink), List.filter_eq_self.mpr]
      exact fun u hu => by simp [hrest u hu]
    · -- The next owner is linked to no other lock.
      have hother : s.linkOf? next ≠ some m := by
        rw [hlink]
        exact fun he => hml (Option.some_inj.mp he).symm
      simp only [Desk.handOver, update_of_ne hml, hold]
      refine (List.filter_eq_self.mpr fun u _ => ?_).symm
      by_cases hu : u = next <;> simp [hu, hother]
  turns := by simp [h.turns, Event.turn?]
  starts := by simp [h.starts, Event.roundStart?]
  grants m := by
    by_cases hml : m = l
    · subst hml
      simp [Desk.handOver, Desk.acquire, Desk.pass, h.grants, Event.grant?]
    · simp [Desk.handOver, Desk.acquire, Desk.pass, hml, h.grants, Event.grant?, Ne.symm hml]

end Course.Mirrors

end RoundScheduler
