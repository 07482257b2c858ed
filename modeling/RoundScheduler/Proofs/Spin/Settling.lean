import Mathlib.Data.List.Nodup
import RoundScheduler.Proofs.Spin.Fresh

/-!
# How the request for a lock ends

A thread that asks for a lock leaves the critical section, or it becomes the captive of its own
request: it is in the queue, and about to close a round of which it is the only primary, to begin
one of which it will be the only primary again. The places are gone through from the last one back:
first those of a fresh round, in which the thread falls asleep, gets the lock or becomes a captive,
and then those of any round, which the thread leaves or closes.
-/

namespace RoundScheduler

open State

/-- The flag is set on which the thread `t` sleeps, once it has looked at the round. -/
def AfterCheck.Asleep (s : State) (t : ThreadId) : AfterCheck → Prop
  | .awaitRoundEnd _ => s.isFinished t = true
  | .awaitTurn _ => s.isWaiting t = true
  | .awaitHandOver _ => (s.linkOf? t).isSome
  | .leave => True

/-- A thread whose flag is set does not go on. -/
lemma AfterCheck.Asleep.not_goto {eligible : ThreadId → Bool} {s s' : State} {t : ThreadId}
    {k : AfterCheck} {ph : Phase} {point : Point} (h : k.Asleep s t) (hk : k.phase? = some ph) :
    ¬ Stretch eligible s t ph (.goto s' point) := by
  intro ho
  cases k <;> cases hk
  case awaitRoundEnd p =>
    cases ho with
    | ended _ r hr hfinished => simp [Asleep, isFinished, hr, hfinished] at h
  case awaitTurn p =>
    cases ho with
    | woken _ r hr hwaiting => simp [Asleep, isWaiting, hr, hwaiting] at h
  case awaitHandOver l =>
    cases ho with
    | retry _ k r hk howner hr hqueued => simp [Asleep, linkOf?, hr, hqueued] at h

namespace State

variable {s : State} {t : ThreadId} {l : LockId}

/-- Whoever finishes is flagged. -/
lemma isFinished_finish (ht : (s.record? t).isSome) : (s.finish t).isFinished t = true := by
  obtain ⟨r, hr⟩ := Option.isSome_iff_exists.mp ht
  simp [isFinished, record?_finish, hr]

/-- Whoever waits for its turn is flagged. -/
lemma isWaiting_awaitTurn (ht : (s.record? t).isSome) : (s.awaitTurn t).isWaiting t = true := by
  obtain ⟨r, hr⟩ := Option.isSome_iff_exists.mp ht
  simp [isWaiting, record?_awaitTurn, hr]

/-- Whoever takes a turn and queues is linked to the lock. -/
lemma linkOf?_queued (l : LockId) (slot : Slot) (ht : (s.record? t).isSome) :
    ((s.afterTurn t slot).enqueue l t).linkOf? t = some l := by
  obtain ⟨r, hr⟩ := Option.isSome_iff_exists.mp ht
  simp [linkOf?, record?_enqueue, record?_afterTurn, hr]

/-- Whoever is in a queue does not keep the round open. -/
lemma canProgress_of_linked (h : s.linkOf? t = some l) : s.canProgress t = false := by
  obtain ⟨r, hr, hlinked⟩ := linkOf?_eq_some_iff.mp h
  simp [canProgress, hr, ThreadRecord.canProgress, hlinked]

/-- Unless somebody else is a primary, the thread is the only one. -/
lemma Seating.primaries_eq_of_lone (h : Seating s) (ht : t ∈ s.primaries)
    (hlone : ¬ ∃ u ∈ s.primaries, u ≠ t) : s.primaries = [t] := by
  refine List.perm_singleton.mp
    ((List.perm_ext_iff_of_nodup h.nodup (List.nodup_singleton t)).mpr fun u => ?_)
  rw [List.mem_singleton]
  constructor
  · exact fun hu => by_contra fun hut => hlone ⟨u, hu, hut⟩
  · rintro rfl
    exact ht

/-- A round is over once its only primary is in a queue. -/
lemma over_of_queued (l : LockId) (slot : Slot) (hs : Sound s) (hlist : s.primaries = [t])
    (hfull : s.live.primaries ≤ s.primaries.length) :
    ((s.afterTurn t slot).enqueue l t).live.primaries ≤
        ((s.afterTurn t slot).enqueue l t).primaries.length ∧
      ∀ u ∈ ((s.afterTurn t slot).enqueue l t).primaries,
        ((s.afterTurn t slot).enqueue l t).canProgress u = false := by
  have hprimaries : ((s.afterTurn t slot).enqueue l t).primaries = s.primaries :=
    primaries_afterTurn slot
  have hlive : ((s.afterTurn t slot).enqueue l t).live.primaries = s.live.primaries :=
    (settled_afterTurn slot).live
  have hrecord : (s.record? t).isSome := hs.seating.isSome_of_mem (by simp [hlist])
  refine ⟨?_, fun u hu => ?_⟩
  · rw [hprimaries, hlive]
    exact hfull
  · rw [hprimaries, hlist] at hu
    rw [List.mem_singleton.mp hu]
    exact canProgress_of_linked (linkOf?_queued l slot hrecord)

end State

namespace System

/-- The thread `t` is in the queue of the lock `l`, which somebody else owns, and about to close the
round; it is the only primary of the next one. -/
structure IsCaptive (eligible : ThreadId → Bool) (t : ThreadId) (l : LockId) (sys : System) :
    Prop where
  inside : sys.inside = some (.unit t)
  call : sys.calls.get? (.unit t) = some ⟨.lock l, .thread t (.check (.awaitHandOver l))⟩
  exposed : sys.state.Exposed eligible t l
  full : sys.state.live.primaries ≤ sys.state.primaries.length
  stuck : ∀ u ∈ sys.state.primaries, sys.state.canProgress u = false

/-- The thread `t` leaves the critical section or becomes the captive of its request for a lock. -/
def Settles (eligible : ThreadId → Bool) (t : ThreadId) (l : LockId) (sys : System) : Prop :=
  sys.Leads eligible fun last => last.HasLeft eligible t ∨ last.IsCaptive eligible t l

namespace StandsAt

variable {eligible : ThreadId → Bool} {sys : System} {t u : ThreadId} {l : LockId} {ph : Phase}
  {k : AfterCheck} {index : Nat} {plan : RoundConfig}

/-- A thread that stands at a phase settles if it does from wherever it goes. -/
lemma settles (h : sys.StandsAt t ph)
    (hgoto : ∀ s' ph', Stretch eligible sys.state t ph (.goto s' (.thread t ph')) →
      ∀ next : System, next.StandsAt t ph' → next.state = s' → next.Settles eligible t l) :
    sys.Settles eligible t l :=
  h.leads (fun _ => .inl) hgoto

/-- Whoever is asleep leaves the critical section at once. -/
lemma settles_of_asleep (h : sys.StandsAt t ph) (hk : k.phase? = some ph)
    (hasleep : k.Asleep sys.state t) : sys.Settles eligible t l :=
  h.settles fun _ _ ho => absurd ho (hasleep.not_goto hk)

/-- Whoever has its flag set and finds the round open falls asleep. -/
lemma settles_of_open (h : sys.StandsAt t (.check k)) (hasleep : k.Asleep sys.state t)
    (hu : u ∈ sys.state.primaries) (hcan : sys.state.canProgress u = true) :
    sys.Settles eligible t l := by
  refine h.settles fun s' ph' ho next hnext hs => ?_
  cases ho with
  | stillOpen _ _ hk => exact hnext.settles_of_asleep hk (hs.symm ▸ hasleep)
  | closed _ hfull hstuck =>
    rw [hstuck u hu] at hcan
    cases hcan

/-- Whoever need not sleep after its look at the round asks for the step again, or for the lock. -/
lemma settles_afterCheck (h : sys.StandsAt t ph) (hk : k.phase? = some ph)
    (hop : k.operation = .lock l)
    (hprimary : ∀ next : System, next.StandsAt t (.awaitPrimary (.lock l)) →
      next.state = sys.state → next.Settles eligible t l)
    (henter : ∀ next : System, next.StandsAt t (.enter (.lock l)) →
      next.state = sys.state → next.Settles eligible t l) : sys.Settles eligible t l := by
  refine h.settles fun s' ph' ho next hnext hs => ?_
  cases k with
  | awaitRoundEnd p | awaitTurn p =>
    obtain rfl := Purpose.eq_lock hop
    cases hk
    cases ho
    exact hprimary next hnext hs
  | awaitHandOver m =>
    cases hop
    cases hk
    cases ho
    exact henter next hnext hs
  | leave => cases hk

/-! ### In a fresh round -/

/-- Whoever takes the step of a lone primary to ask for a lock of somebody else is exposed. -/
lemma exposed_of_lone {lock : LockState}
    (h : sys.StandsAt t (.awaitPrimary (.lock l))) (hfresh : sys.state.Fresh eligible index)
    (hlist : sys.state.primaries = [t])
    (hfull : sys.state.live.primaries ≤ sys.state.primaries.length)
    (hlock : sys.state.lock? l = some lock) (howned : lock.owner ≠ none) :
    sys.state.Exposed eligible t l := by
  obtain ⟨-, -, hpoised, -⟩ := (h.call ▸ h.invariant.placed (.unit t)).of_thread
  obtain ⟨o, ho⟩ := Option.ne_none_iff_exists'.mp howned
  constructor
  case alone =>
    have hpositive := h.invariant.sound.seating.positive
    rw [hlist, hfresh.live] at hfull
    rw [hfresh.live] at hpositive
    exact Nat.le_antisymm hfull hpositive
  case first =>
    obtain ⟨rest, hrest⟩ := hfresh.front
    rw [← hrest, hlist]
    rfl
  case owned =>
    refine ⟨o, ownerOf?_eq_some_iff.mpr ⟨lock, hlock, ho⟩, fun hot => ?_⟩
    exact hpoised.asking l lock rfl hlock (hot ▸ ho)

/-- In a fresh round a primary that has to wait does so while another one can make progress; only a
lone one becomes a captive. -/
lemma settles_awaitPrimary_of_fresh (h : sys.StandsAt t (.awaitPrimary (.lock l)))
    (hfresh : sys.state.Fresh eligible index)
    (hfull : sys.state.live.primaries ≤ sys.state.primaries.length) :
    sys.Settles eligible t l := by
  have hsound := h.invariant.sound
  refine h.settles fun s' ph' ho next hnext hs => ?_
  have hchange : Change sys.state (some t) s' := h.invariant.stretch_change h.call rfl ho
  have hcalm : ∀ u ∈ sys.state.primaries, u ≠ t → s'.canProgress u = true := fun u hu hut =>
    (hchange.calm hsound (by simpa using Ne.symm hut)).canProgress (hfresh.awake u hu)
  have hexposed := h.exposed_iff (u := t) (l := l) rfl ho
  cases ho with
  | finished _ slot hslot hout => exact absurd (hfresh.mem_order hsound hslot) hout
  | notNext _ slot hslot hin hhead =>
    -- The next step belongs to the first primary.
    have hpositive : 0 < sys.state.primaries.length :=
      Nat.lt_of_lt_of_le hsound.seating.positive hfull
    have hfirst : sys.state.primaries[0]? = some sys.state.primaries[0] :=
      List.getElem?_eq_getElem hpositive
    have hne : sys.state.primaries[0] ≠ t := fun heq => by
      have hzero := hsound.seating.slot_unique hslot (hfirst.trans (congrArg some heq))
      exact hhead (hzero ▸ hfresh.head?_order hsound)
    have hmem := List.getElem_mem hpositive
    have hrecord := hsound.seating.isSome_of_mem (List.mem_of_getElem? hslot)
    exact hnext.settles_of_open (hs.symm ▸ isWaiting_awaitTurn hrecord) (hs.symm ▸ hmem)
      (hs.symm ▸ hcalm _ hmem hne)
  | queued _ lock slot hslot hhead hlock howned =>
    have hmem := List.mem_of_getElem? hslot
    by_cases hother : ∃ u ∈ sys.state.primaries, u ≠ t
    · obtain ⟨u, hu, hut⟩ := hother
      have hlink := linkOf?_queued l slot (hsound.seating.isSome_of_mem hmem)
      have hprimaries : u ∈ ((sys.state.afterTurn t slot).enqueue l t).primaries :=
        (primaries_afterTurn slot).symm ▸ hu
      exact hnext.settles_of_open (by simp [AfterCheck.Asleep, hs, hlink]) (hs.symm ▸ hprimaries)
        (hs.symm ▸ hcalm u hu hut)
    · have hlist := hsound.seating.primaries_eq_of_lone hmem hother
      have hbefore := h.exposed_of_lone hfresh hlist hfull hlock howned
      obtain ⟨hfull, hstuck⟩ := over_of_queued l slot hsound hlist hfull
      exact .here (.inr ⟨hnext.inside, hnext.call, hs.symm ▸ hexposed.mpr hbefore, hs.symm ▸ hfull,
        hs.symm ▸ hstuck⟩)

/-- In a fresh round that is full a request for a lock settles. -/
lemma settles_enter_of_fresh (h : sys.StandsAt t (.enter (.lock l)))
    (hfresh : sys.state.Fresh eligible index)
    (hfull : sys.state.live.primaries ≤ sys.state.primaries.length) :
    sys.Settles eligible t l := by
  refine h.settles fun s' ph' ho next hnext hs => ?_
  cases ho with
  | bootstrap _ hround => exact absurd hround hfresh.begun
  | entered => exact hnext.settles_awaitPrimary_of_fresh (hs.symm ▸ hfresh) (hs.symm ▸ hfull)

/-- In a fresh round that is filled there is nothing to close. -/
lemma settles_check_of_fresh (h : sys.StandsAt t (.check k)) (hop : k.operation = .lock l)
    (hfresh : sys.state.Fresh eligible index)
    (hfull : sys.state.live.primaries ≤ sys.state.primaries.length) :
    sys.Settles eligible t l := by
  refine h.settles fun s' ph' ho next hnext hs => ?_
  cases ho with
  | stillOpen _ _ hk =>
    rw [← hs] at hfresh hfull
    exact hnext.settles_afterCheck hk hop
      (fun _ hlast hs => hlast.settles_awaitPrimary_of_fresh (hs.symm ▸ hfresh) (hs.symm ▸ hfull))
      fun _ hlast hs => hlast.settles_enter_of_fresh (hs.symm ▸ hfresh) (hs.symm ▸ hfull)
  | closed _ _ hstuck =>
    have hpositive := Nat.lt_of_lt_of_le h.invariant.sound.seating.positive hfull
    have hmem := List.getElem_mem hpositive
    exact absurd (hfresh.awake _ hmem) (by simp [hstuck _ hmem])

/-! ### Filling a round -/

/-- Whoever fills a round finds it as it left it. -/
lemma filling {k : AfterFill} (h : sys.StandsAt t (.fill index plan k)) :
    sys.state.Filling index plan :=
  (h.invariant.fillers.filling (.unit t) index plan
    (by simp [fill?, phase?, h.call, Point.phase?, Phase.fill?])).1

/-- Whoever fills a round looks at every thread of the list at most once. A property that each look
keeps holds when the round is filled. -/
lemma settles_fill {k : AfterFill} (Q : Nat → State → Prop)
    (h : sys.StandsAt t (.fill index plan k)) (hQ : Q index sys.state)
    (hlook : ∀ (sys : System) index s', sys.StandsAt t (.fill index plan k) → Q index sys.state →
      Stretch eligible sys.state t (.fill index plan k)
        (.goto s' (.thread t (.fill (index + 1) plan k))) → Q (index + 1) s')
    (hfilled : ∀ (sys next : System) index, sys.StandsAt t (.fill index plan k) →
      Q index sys.state → plan.primaries ≤ sys.state.primaries.length → next.StandsAt t k.phase →
      next.state = sys.state.recordStart plan.order → next.Settles eligible t l) :
    sys.Settles eligible t l := by
  induction hn : sys.state.threadList.length - index using Nat.strongRecOn
    generalizing sys index with
  | ind n ih =>
    refine h.settles fun s' ph' ho next hnext hs => ?_
    have hkept := hlook sys index s' h hQ
    have hindex : ∀ u, sys.state.threadList[index]? = some u →
        s'.threadList.length = sys.state.threadList.length →
        s'.threadList.length - (index + 1) < n := fun u hu hlength => by
      have hlt := (List.getElem?_eq_some_iff.mp hu).1
      omega
    cases ho with
    | skipped _ _ _ u r hlen hu hr hskip =>
      exact ih _ (hindex u hu rfl) hnext (hs.symm ▸ hkept (.skipped _ _ _ u r hlen hu hr hskip))
        (by rw [hs])
    | chosen _ _ _ u r hlen hu hr hterminated heligible =>
      exact ih _ (hindex u hu rfl) hnext
        (hs.symm ▸ hkept (.chosen _ _ _ u r hlen hu hr hterminated heligible)) (by rw [hs])
    | filled _ _ _ hlen => exact hfilled sys next index h hQ hlen hnext hs

/-- Every look at a thread keeps a round fresh. -/
lemma fresh_of_look {k : AfterFill} {s' : State} (h : sys.StandsAt t (.fill index plan k))
    (hfresh : sys.state.Fresh eligible index)
    (ho : Stretch eligible sys.state t (.fill index plan k)
      (.goto s' (.thread t (.fill (index + 1) plan k)))) : s'.Fresh eligible (index + 1) := by
  have hsound := h.invariant.sound
  generalize hpoint : Point.thread t (.fill (index + 1) plan k) = point at ho
  cases ho with
  | skipped _ _ _ u r hlen hu hr hskip =>
    have hterminated : r.terminated = false := by
      simpa [hasTerminated, hr] using hfresh.unretired u
    exact hfresh.skip hu (hskip.resolve_left (by simp [hterminated]))
  | chosen _ _ _ u r hlen hu hr hterminated heligible =>
    exact hfresh.choose hsound hu heligible (h.filling.not_mem hsound.roster hu)
  | filled => cases k <;> cases hpoint

/-- The fill of a fresh round settles, however many threads are left to look at. -/
lemma settles_fill_of_fresh {k : AfterFill} (h : sys.StandsAt t (.fill index plan k))
    (hop : k.operation = .lock l) (hfresh : sys.state.Fresh eligible index) :
    sys.Settles eligible t l := by
  refine h.settles_fill (fun index s => s.Fresh eligible index) hfresh
    (fun _ _ _ => fresh_of_look) fun sys next index hstands hfresh hlen hnext hs => ?_
  have hfilled := hfresh.recordStart plan.order
  have hfull : (sys.state.recordStart plan.order).live.primaries ≤
      (sys.state.recordStart plan.order).primaries.length := hstands.filling.primaries ▸ hlen
  rw [← hs] at hfilled hfull
  cases k with
  | takeStep p =>
    obtain rfl := Purpose.eq_lock hop
    exact hnext.settles_awaitPrimary_of_fresh hfilled hfull
  | retire => cases hop
  | recheck k => exact hnext.settles_check_of_fresh hop hfilled hfull

/-! ### In any round -/

/-- Whoever finds its round over begins a fresh one. -/
lemma settles_check (h : sys.StandsAt t (.check k)) (hop : k.operation = .lock l)
    (hopen : ∀ ph, k.phase? = some ph → ∀ next : System, next.StandsAt t ph →
      next.state = sys.state → next.Settles eligible t l) : sys.Settles eligible t l := by
  refine h.settles fun s' ph' ho next hnext hs => ?_
  cases ho with
  | stillOpen _ _ hk => exact hopen ph' hk next hnext hs
  | closed => exact hnext.settles_fill_of_fresh hop (hs.symm ▸ h.invariant.sound.fresh_nextRound)

/-- Whoever looks at a round with its flag set settles: it sleeps, or the next round is fresh. -/
lemma settles_check_of_asleep (h : sys.StandsAt t (.check k)) (hop : k.operation = .lock l)
    (hasleep : k.Asleep sys.state t) : sys.Settles eligible t l :=
  h.settles_check hop fun _ hk _ hnext hs => hnext.settles_of_asleep hk (hs.symm ▸ hasleep)

/-- Whoever waits to be a primary settles. -/
lemma settles_awaitPrimary (h : sys.StandsAt t (.awaitPrimary (.lock l))) :
    sys.Settles eligible t l := by
  have hseating := h.invariant.sound.seating
  refine h.settles fun s' ph' ho next hnext hs => ?_
  cases ho with
  | finished _ slot hslot =>
    have hrecord := hseating.isSome_of_mem (List.mem_of_getElem? hslot)
    exact hnext.settles_check_of_asleep rfl (hs.symm ▸ isFinished_finish hrecord)
  | notNext _ slot hslot =>
    have hrecord := hseating.isSome_of_mem (List.mem_of_getElem? hslot)
    exact hnext.settles_check_of_asleep rfl (hs.symm ▸ isWaiting_awaitTurn hrecord)
  | queued _ lock slot hslot =>
    have hrecord := hseating.isSome_of_mem (List.mem_of_getElem? hslot)
    refine hnext.settles_check_of_asleep rfl ?_
    simp [AfterCheck.Asleep, hs, linkOf?_queued l slot hrecord]

/-- A request for a lock settles wherever the round is. -/
lemma settles_enter (h : sys.StandsAt t (.enter (.lock l))) : sys.Settles eligible t l := by
  have hsound := h.invariant.sound
  refine h.settles fun s' ph' ho next hnext hs => ?_
  cases ho with
  | bootstrap _ hround =>
    have hfresh : sys.state.beginRound.Fresh eligible 0 :=
      (hsound.seating.cleared_of_unbegun hround).fresh_beginRound hsound.roster
    exact hnext.settles_fill_of_fresh rfl (hs.symm ▸ hfresh)
  | entered => exact hnext.settles_awaitPrimary

/-- Whoever looks for its flag after a round settles. -/
lemma settles_asking (h : sys.StandsAt t ph) (hk : k.phase? = some ph)
    (hop : k.operation = .lock l) : sys.Settles eligible t l :=
  h.settles_afterCheck hk hop (fun _ hnext _ => hnext.settles_awaitPrimary)
    fun _ hnext _ => hnext.settles_enter

/-- Whoever looks at the round once more settles. -/
lemma settles_recheck (h : sys.StandsAt t (.check k)) (hop : k.operation = .lock l) :
    sys.Settles eligible t l :=
  h.settles_check hop fun _ hk _ hnext _ => hnext.settles_asking hk hop

/-- Wherever a thread stands that asks for a lock, it leaves the critical section or becomes a
captive. -/
theorem settles_lock (h : sys.StandsAt t ph) (hop : ph.operation = .lock l) :
    sys.Settles eligible t l := by
  cases ph with
  | enter p =>
    obtain rfl := Purpose.eq_lock hop
    exact h.settles_enter
  | awaitPrimary p =>
    obtain rfl := Purpose.eq_lock hop
    exact h.settles_awaitPrimary
  | awaitRoundEnd p => exact h.settles_asking (k := .awaitRoundEnd p) rfl hop
  | awaitTurn p => exact h.settles_asking (k := .awaitTurn p) rfl hop
  | awaitHandOver m => exact h.settles_asking (k := .awaitHandOver m) rfl hop
  | check k => exact h.settles_recheck hop
  | fill index plan k =>
    refine h.settles_fill (fun _ _ => True) trivial (fun _ _ _ _ _ _ => trivial)
      fun sys next index _ _ _ hnext _ => ?_
    cases k with
    | takeStep p =>
      obtain rfl := Purpose.eq_lock hop
      exact hnext.settles_awaitPrimary
    | retire => cases hop
    | recheck k => exact hnext.settles_recheck hop
  | enterRetirement | awaitRetirement => cases hop

end StandsAt

end System

end RoundScheduler
