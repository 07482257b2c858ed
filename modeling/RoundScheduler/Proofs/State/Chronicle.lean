import RoundScheduler.Proofs.State.Events

/-!
# The chronicle of a state

What was recorded agrees with the state: nothing was recorded of rounds to come, the turns of the
current round were taken by its primaries, its start names them, and threads whose retirement was
recorded never act again. Every change and every arrival keeps this.
-/

namespace RoundScheduler.State

variable {s s' : State} {t u : ThreadId}

/-- Whoever has the number of the thread retired, and the number will not be handed out again. -/
def IsBuried (s : State) (t : ThreadId) : Prop :=
  t.raw < s.nextThread.raw ∧ ∀ r, s.record? t = some r → r.terminated = true

/-- The recorded events agree with the state. -/
structure Chronicle (s : State) : Prop where
  /-- Nothing was recorded of rounds to come. -/
  rounds : ∀ e ∈ s.events, e.round ≤ s.round
  /-- Whoever retired does not come back. -/
  buried : ∀ k t, .terminated k t ∈ s.events → s.IsBuried t
  /-- The turns of the current round were taken by its primaries. -/
  named : ∀ t slot, .turn s.round t slot ∈ s.events → s.primaries[slot]? = some t
  /-- The start of the current round was recorded with all its primaries. -/
  started : ∀ ps order, .roundStarted s.round ps order ∈ s.events →
    ps = s.primaries ∧ s.live.primaries ≤ s.primaries.length

/-! ### Retired threads -/

/-- Whoever is buried stays so in a change that undoes no retirement and names nobody. -/
lemma IsBuried.of_map {g : ThreadRecord → ThreadRecord} (h : s.IsBuried t)
    (hrecord : s'.record? t = (s.record? t).map g)
    (hg : ∀ r, r.terminated = true → (g r).terminated = true)
    (hnext : s'.nextThread = s.nextThread) : s'.IsBuried t := by
  refine ⟨hnext ▸ h.1, fun r' hr' => ?_⟩
  obtain ⟨r, hr, rfl⟩ := Option.map_eq_some_iff.mp (hrecord.symm.trans hr')
  exact hg r (h.2 r hr)

/-- Whoever is buried stays so with the same record. -/
lemma IsBuried.congr (h : s.IsBuried t) (hrecord : s'.record? t = s.record? t)
    (hnext : s'.nextThread = s.nextThread) : s'.IsBuried t :=
  h.of_map (hrecord.trans Option.map_id'.symm) (fun _ => id) hnext

/-- Whoever is buried stays so when it is pruned. -/
lemma IsBuried.beginRound (h : s.IsBuried t) (hroster : Roster s) : s.beginRound.IsBuried t := by
  refine ⟨nextThread_beginRound.symm ▸ h.1, fun r' hr' => ?_⟩
  rw [record?_beginRound hroster.keys_nodup] at hr'
  obtain ⟨r, hr, rfl⟩ := Option.map_eq_some_iff.mp hr'
  exact h.2 r (Option.filter_eq_some_iff.mp hr).1

/-- Whoever is buried stays so after a turn of somebody. -/
lemma IsBuried.afterTurn (h : s.IsBuried t) (slot : Slot) : (s.afterTurn u slot).IsBuried t :=
  h.of_map (record?_afterTurn slot) (fun _ => id) (by rw [afterTurn_eq])

/-- Whoever retired does not come back by a change. -/
lemma Change.isBuried {w : Option ThreadId} (hc : Change s w s') (hs : Sound s)
    (h : s.IsBuried t) : s'.IsBuried t := by
  cases hc with
  | stay => exact h
  | finish => exact h.of_map record?_finish (fun _ => id) rfl
  | awaitTurn => exact h.of_map record?_awaitTurn (fun _ => id) rfl
  | turn u slot => exact h.afterTurn slot
  | grant u slot => exact (h.afterTurn slot).congr rfl rfl
  | enqueue u slot => exact (h.afterTurn slot).of_map record?_enqueue (fun _ => id) rfl
  | stage u slot => exact (h.afterTurn slot).congr rfl rfl
  | retire u slot =>
    refine h.of_map (record?_afterRetirement slot) (fun r hr => ?_) (by rw [afterRetirement_eq])
    simp [hr]
  | bootstrap => exact h.beginRound hs.roster
  | next =>
    have hclose : s.closeRound.IsBuried t := h.of_map record?_closeRound (fun _ => id) rfl
    exact hclose.beginRound hs.roster.closeRound
  | choose => exact h.of_map record?_choose (fun _ => id) rfl
  | start => exact h.congr rfl rfl
  | unlink u => exact h.of_map (record?_detach [u]) (fun _ => id) rfl
  | forget => exact h.congr rfl rfl
  | release => exact h.congr rfl rfl
  | handOver => exact h.of_map record?_handOver (fun _ => id) rfl
  | newLock => exact h.congr rfl rfl
  | dropLock l hl =>
    rw [dropLock_eq hl]
    exact h.congr rfl rfl

/-- Whoever retired does not come back by an arrival. -/
lemma Arrival.isBuried (ha : Arrival s s') (h : s.IsBuried t) : s'.IsBuried t := by
  have henrol : s.enrol.IsBuried t := by
    refine ⟨Nat.lt_succ_of_lt h.1, fun r hr => ?_⟩
    have hne : t ≠ s.nextThread := fun he => Nat.lt_irrefl _ (he ▸ h.1)
    rw [record?_enrol, if_neg hne] at hr
    exact h.2 r hr
  cases ha with
  | enrol => exact henrol
  | block => exact henrol.congr rfl rfl
  | list u work => exact h.of_map (record?_list work) (fun _ => id) rfl

/-- Whoever retires has retired. -/
lemma Sound.isBuried_afterRetirement (hs : Sound s) {slot : Slot}
    (hslot : s.primaries[slot]? = some t) : (s.afterRetirement t slot).IsBuried t := by
  obtain ⟨r, hr, -⟩ := hs.seating.primary_of_slot hslot
  refine ⟨?_, fun r' hr' => ?_⟩
  · rw [afterRetirement_eq]
    exact hs.roster.fresh t (by simp [started?, hr])
  · obtain ⟨r, -, rfl⟩ :=
      Option.map_eq_some_iff.mp ((record?_afterRetirement slot).symm.trans hr')
    simp

/-- Whoever retired is not alive. -/
lemma IsBuried.isAlive_eq_false (h : s.IsBuried t) : s.isAlive t = false := by
  refine Bool.eq_false_iff.mpr fun halive => ?_
  obtain ⟨r, hr, -, hterminated⟩ := exists_record_of_isAlive halive
  cases (h.2 r hr).symm.trans hterminated

/-- A primary is not among those who retired for good unless its record says so. -/
lemma Chronicle.not_terminated (h : Chronicle s) (ht : s.hasTerminated t = false)
    (hr : (s.record? t).isSome) (k : Nat) : .terminated k t ∉ s.events := by
  intro hmem
  obtain ⟨r, hr⟩ := Option.isSome_iff_exists.mp hr
  have hterminated := (h.buried k t hmem).2 r hr
  simp [hasTerminated, hr, hterminated] at ht

/-! ### Recording events -/

/-- The chronicle goes on with events of the current round. -/
lemma Chronicle.extend (h : Chronicle s) (new : List Event) (hround : s'.round = s.round)
    (hprimaries : s'.primaries = s.primaries) (hlive : s'.live.primaries = s.live.primaries)
    (hevents : s'.events = s.events ++ new) (hburied : ∀ t, s.IsBuried t → s'.IsBuried t)
    (hrounds : ∀ e ∈ new, e.round = s.round)
    (hterminated : ∀ k t, .terminated k t ∈ new → s'.IsBuried t)
    (hnamed : ∀ t slot, .turn s.round t slot ∈ new → s.primaries[slot]? = some t)
    (hstarted : ∀ ps order, .roundStarted s.round ps order ∈ new →
      ps = s.primaries ∧ s.live.primaries ≤ s.primaries.length) : Chronicle s' where
  rounds e he := by
    rw [hround]
    rcases List.mem_append.mp (hevents ▸ he) with he | he
    · exact h.rounds e he
    · exact Nat.le_of_eq (hrounds e he)
  buried k t ht := by
    rcases List.mem_append.mp (hevents ▸ ht) with ht | ht
    · exact hburied t (h.buried k t ht)
    · exact hterminated k t ht
  named t slot ht := by
    rw [hround, hevents] at ht
    rw [hprimaries]
    exact (List.mem_append.mp ht).elim (h.named t slot) (hnamed t slot)
  started ps order hps := by
    rw [hround, hevents] at hps
    rw [hprimaries, hlive]
    exact (List.mem_append.mp hps).elim (h.started ps order) (hstarted ps order)

/-- The chronicle is not concerned by a change that records nothing and leaves the round alone. -/
lemma Chronicle.keep (h : Chronicle s) (hround : s'.round = s.round)
    (hprimaries : s'.primaries = s.primaries) (hlive : s'.live.primaries = s.live.primaries)
    (hevents : s'.events = s.events) (hburied : ∀ t, s.IsBuried t → s'.IsBuried t) : Chronicle s' :=
  h.extend [] hround hprimaries hlive (by simpa using hevents) hburied nofun nofun nofun nofun

/-- A new round has no events. -/
lemma Chronicle.beginRound (h : Chronicle s) (hround : s'.round = s.round + 1)
    (hevents : s'.events = s.events) (hburied : ∀ t, s.IsBuried t → s'.IsBuried t) :
    Chronicle s' := by
  have hnew : ∀ e ∈ s'.events, e.round < s'.round := fun e he =>
    hround ▸ Nat.lt_succ_of_le (h.rounds e (hevents ▸ he))
  exact ⟨fun e he => Nat.le_of_lt (hnew e he),
    fun k t ht => hburied t (h.buried k t (hevents ▸ ht)),
    fun t slot ht => absurd (hnew _ ht) (Nat.lt_irrefl _),
    fun ps order hps => absurd (hnew _ hps) (Nat.lt_irrefl _)⟩

/-- A step of a primary, and what it is used for, go on with the chronicle. -/
lemma Chronicle.takeTurn (h : Chronicle s) {slot : Slot} (rest : List Event)
    (hslot : s.primaries[slot]? = some t) (hround : s'.round = s.round)
    (hprimaries : s'.primaries = s.primaries) (hlive : s'.live.primaries = s.live.primaries)
    (hevents : s'.events = s.events ++ .turn s.round t slot :: rest)
    (hburied : ∀ t, s.IsBuried t → s'.IsBuried t)
    (hrest : ∀ e ∈ rest, e.round = s.round ∧ (∀ k u, e ≠ .terminated k u) ∧
      (∀ k u slot, e ≠ .turn k u slot) ∧ ∀ k ps order, e ≠ .roundStarted k ps order) :
    Chronicle s' := by
  refine h.extend _ hround hprimaries hlive hevents hburied (fun e he => ?_) (fun k u hu => ?_)
    (fun u slot' hu => ?_) fun ps order hps => ?_
  · rcases List.mem_cons.mp he with rfl | he
    · rfl
    · exact (hrest e he).1
  · rcases List.mem_cons.mp hu with hu | hu
    · cases hu
    · exact absurd rfl ((hrest _ hu).2.1 k u)
  · rcases List.mem_cons.mp hu with hu | hu
    · cases hu
      exact hslot
    · exact absurd rfl ((hrest _ hu).2.2.1 _ u slot')
  · rcases List.mem_cons.mp hps with hps | hps
    · cases hps
    · exact absurd rfl ((hrest _ hps).2.2.2 _ ps order)

/-- Every change keeps the agreement. -/
theorem Change.chronicle {w : Option ThreadId} (hc : Change s w s') (hs : Sound s)
    (h : Chronicle s) : Chronicle s' := by
  have hburied : ∀ t, s.IsBuried t → s'.IsBuried t := fun t => hc.isBuried hs
  have hlive : ∀ t slot, (s.afterTurn t slot).live.primaries = s.live.primaries := fun t slot => by
    rw [live_afterTurn]
    rfl
  cases hc with
  | turn t slot hslot hhead =>
    exact h.takeTurn [] hslot (round_afterTurn slot) (primaries_afterTurn slot)
      (hlive t slot) (events_afterTurn slot) hburied nofun
  | grant t slot l k hslot hhead hk hfree =>
    exact h.takeTurn _ hslot (round_afterTurn slot) (primaries_afterTurn slot)
      (hlive t slot) (events_granted slot) hburied (by simp [Event.round])
  | enqueue t slot l k hslot hhead hk howned hother hlink =>
    exact h.takeTurn [] hslot (round_afterTurn slot) (primaries_afterTurn slot)
      (hlive t slot) (events_afterTurn slot) hburied nofun
  | stage t slot n steps c hslot hhead hc =>
    exact h.takeTurn _ hslot (round_afterTurn slot) (primaries_afterTurn slot)
      (hlive t slot) (events_staged slot n steps c) hburied (by simp [Event.round])
  | retire t slot hslot hterminated hawake =>
    refine h.extend _ (round_afterRetirement slot) (primaries_afterRetirement slot)
      (by rw [live_afterRetirement]; rfl) (events_afterRetirement slot) hburied
      (by simp [Event.round]) (fun k u hu => ?_) (by simp) (by simp)
    cases List.mem_singleton.mp hu
    exact hs.isBuried_afterRetirement hslot
  | bootstrap hround => exact h.beginRound round_beginRound events_beginRound hburied
  | next hround hfull hstuck => exact h.beginRound round_nextRound events_nextRound hburied
  | choose t hround hlen halive hnew =>
    refine ⟨h.rounds, fun k u hu => hburied u (h.buried k u hu), fun u slot hu => ?_,
      fun ps order hps => ?_⟩
    · have hget := h.named u slot hu
      have hlt : slot < s.primaries.length := (List.getElem?_eq_some_iff.mp hget).1
      exact (List.getElem?_append_left hlt).trans hget
    · exact absurd hlen (Nat.not_lt.mpr (h.started ps order hps).2)
  | start order hround hfull =>
    refine h.extend _ rfl rfl rfl (events_recordStart order) hburied (by simp [Event.round])
      (by simp) (by simp) fun ps order' hps => ?_
    cases List.mem_singleton.mp hps
    exact ⟨rfl, hfull⟩
  | handOver t l k next rest hk howner hqueue =>
    exact h.extend _ rfl rfl rfl events_handOver hburied (by simp [Event.round]) (by simp) (by simp)
      (by simp)
  | dropLock l hl hunused =>
    have hevents := events_dropLock hl
    rw [dropLock_eq hl] at hevents hburied ⊢
    exact h.keep rfl rfl rfl hevents hburied
  | _ => exact h.keep rfl rfl rfl rfl hburied

/-- Every arrival keeps the agreement. -/
theorem Arrival.chronicle (ha : Arrival s s') (h : Chronicle s) : Chronicle s' := by
  have hburied : ∀ t, s.IsBuried t → s'.IsBuried t := fun t => ha.isBuried
  cases ha with
  | list t work => exact h.keep rfl rfl rfl (events_list work) hburied
  | _ => exact h.keep rfl rfl rfl rfl hburied

end RoundScheduler.State
