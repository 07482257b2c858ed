import RoundScheduler.Proofs.Rounds

/-!
# Rounds that are being filled

From the start of a round until it has all its primaries exactly one thread fills it. That thread
goes through the list in order and sleeps only once it has seen all of it. Whoever changes a flag of
a primary of a filled round looks whether the round is over before it leaves the critical section,
so a filled round that nobody looks at has a primary that can make progress. This file states both
agreements and shows that every move keeps them.
-/

namespace RoundScheduler

open State

/-! ### The thread that fills the round -/

/-- The threads that fill rounds agree with the state. -/
structure Fillers (sys : System) : Prop where
  /-- Whoever fills a round has chosen from what it has seen of the list, and leaves the critical
  section only while primaries are missing. -/
  filling : ∀ a index plan, sys.fill? a = some (index, plan) → sys.state.Filling index plan ∧
    (sys.inside = some a ∨ sys.state.primaries.length < sys.state.live.primaries)
  /-- A round that lacks primaries is being filled. -/
  exists_filler : sys.state.round ≠ 0 → sys.state.primaries.length < sys.state.live.primaries →
    ∃ a, (sys.fill? a).isSome
  /-- By one thread. -/
  unique : ∀ a b, (sys.fill? a).isSome → (sys.fill? b).isSome → a = b

namespace State

variable {s s' : State} {index : Nat} {plan : RoundConfig}

/-- Threads that are listed later do not disturb whoever fills the round. -/
lemma Filling.settled (h : s.Filling index plan) (hs : Settled s s') : s'.Filling index plan where
  round := hs.round ▸ h.round
  primaries := hs.live ▸ h.primaries
  index_le := Nat.le_trans h.index_le hs.threadList.length_le
  seen p hp := by
    obtain ⟨rest, hrest⟩ := hs.threadList
    rw [← hrest, List.take_append_of_le_length h.index_le]
    exact h.seen p (hs.primaries ▸ hp)

/-- A thread that is passed over was seen. -/
lemma Filling.skip (h : s.Filling index plan) {t : ThreadId}
    (ht : s.threadList[index]? = some t) : s.Filling (index + 1) plan where
  round := h.round
  primaries := h.primaries
  index_le := (List.getElem?_eq_some_iff.mp ht).1
  seen p hp := (List.take_subset_take_left _ (Nat.le_succ index)) (h.seen p hp)

/-- A thread that is chosen was seen. -/
lemma Filling.choose (h : s.Filling index plan) {t : ThreadId}
    (ht : s.threadList[index]? = some t) : (s.choose t).Filling (index + 1) plan where
  round := h.round
  primaries := h.primaries
  index_le := (List.getElem?_eq_some_iff.mp ht).1
  seen p hp := by
    rcases List.mem_append.mp hp with hp | hp
    · exact (h.skip ht).seen p hp
    · rw [List.mem_singleton.mp hp]
      refine List.mem_of_getElem? (i := index) ?_
      rw [List.getElem?_take_of_lt (Nat.lt_succ_self _)]
      exact ht

end State

namespace Fillers

variable {sys sys' : System} {a : Agent}

/-- The agreement is kept by a change that neither begins a round nor chooses a primary, if whoever
fills a round stays where it is and is not put out of the critical section. -/
lemma keep (h : Fillers sys) (hsettled : State.Settled sys.state sys'.state)
    (hsame : ∀ b, sys'.fill? b = sys.fill? b)
    (hinside : ∀ b, (sys.fill? b).isSome → sys.inside = some b → sys'.inside = some b) :
    Fillers sys' where
  filling b index plan hb := by
    rw [hsame] at hb
    obtain ⟨hfilling, hwhere⟩ := h.filling b index plan hb
    refine ⟨hfilling.settled hsettled, ?_⟩
    rw [hsettled.primaries, hsettled.live]
    exact hwhere.imp_left (hinside b (by simp [hb]))
  exists_filler hround hlen := by
    rw [hsettled.round] at hround
    rw [hsettled.primaries, hsettled.live] at hlen
    obtain ⟨b, hb⟩ := h.exists_filler hround hlen
    exact ⟨b, by rwa [hsame]⟩
  unique b c hb hc := h.unique b c (hsame b ▸ hb) (hsame c ▸ hc)

/-- The agreement holds if one agent fills the round and agrees with the state. -/
lemma of_single {index : Nat} {plan : RoundConfig} (hnone : ∀ b, b ≠ a → sys.fill? b = none)
    (ha : sys.fill? a = some (index, plan)) (hfilling : sys.state.Filling index plan)
    (hwhere : sys.inside = some a ∨ sys.state.primaries.length < sys.state.live.primaries) :
    Fillers sys where
  filling b index' plan' hb := by
    by_cases hba : b = a
    · subst hba
      cases ha.symm.trans hb
      exact ⟨hfilling, hwhere⟩
    · simp [hnone b hba] at hb
  exists_filler _ _ := ⟨a, by simp [ha]⟩
  unique b c hb hc := by
    have hfill : ∀ b, (sys.fill? b).isSome → b = a := fun b hb => by
      by_cases hba : b = a
      · exact hba
      · simp [hnone b hba] at hb
    exact (hfill b hb).trans (hfill c hc).symm

/-- The agreement holds if nobody fills a round and the round is filled. -/
lemma of_none (hnone : ∀ b, sys.fill? b = none)
    (hfull : sys.state.live.primaries ≤ sys.state.primaries.length) : Fillers sys where
  filling b index plan hb := by simp [hnone b] at hb
  exists_filler _ hlen := absurd hlen (Nat.not_lt.mpr hfull)
  unique b c hb := by simp [hnone b] at hb

/-- Nobody fills a round before the first one. -/
lemma none_of_unbegun (h : Fillers sys) (hround : sys.state.round = 0) (b : Agent) :
    sys.fill? b = none := by
  cases hb : sys.fill? b with
  | none => rfl
  | some fill => exact absurd hround (h.filling b fill.1 fill.2 hb).1.round

/-- Nobody but whoever is inside the critical section fills a round that is full. -/
lemma none_of_full (h : Fillers sys) (hinside : sys.inside = some a)
    (hfull : sys.state.live.primaries ≤ sys.state.primaries.length) {b : Agent} (hba : b ≠ a) :
    sys.fill? b = none := by
  cases hb : sys.fill? b with
  | none => rfl
  | some fill =>
    rcases (h.filling b fill.1 fill.2 hb).2 with hb' | hlen
    · exact absurd (Option.some_inj.mp (hb'.symm.trans hinside)) hba
    · exact absurd hlen (Nat.not_lt.mpr hfull)

/-- Nobody else fills a round that an agent fills. -/
lemma none_of_ne (h : Fillers sys) (ha : (sys.fill? a).isSome) {b : Agent} (hba : b ≠ a) :
    sys.fill? b = none := by
  cases hb : sys.fill? b with
  | none => rfl
  | some fill => exact absurd (h.unique b a (by simp [hb]) ha) hba

/-- What a thread does keeps the agreement. -/
theorem stretch (h : Fillers sys) {t : ThreadId} {op : Operation} {ph : Phase}
    {eligible : ThreadId → Bool} {o : Outcome} (hinside : sys.inside = some (.unit t))
    (hcall : sys.calls.get? (.unit t) = some ⟨op, .thread t ph⟩)
    (ho : Stretch eligible sys.state t ph o) : Fillers (sys.apply (.unit t) op o) := by
  have hfill := System.fill?_of_call hcall
  have hown := System.fill?_apply_self (o := o) hcall
  have hother : ∀ b, b ≠ .unit t → (sys.apply (.unit t) op o).fill? b = sys.fill? b :=
    fun b hb => System.fill?_apply_of_ne hb
  cases ho.roundPart with
  | begins k hph hover hbegun =>
    refine .of_single (fun b hb => (hother b hb).trans ?_) hown hbegun.filling (.inl rfl)
    rcases hover with hround | ⟨hfull, -⟩
    · exact h.none_of_unbegun hround b
    · exact h.none_of_full hinside hfull hb
  | fills index plan k ho =>
    have hfilling := (h.filling _ index plan hfill).1
    have hnone : ∀ b, b ≠ .unit t → (sys.apply (.unit t) op o).fill? b = none := fun b hb =>
      (hother b hb).trans (h.none_of_ne (by simp [hfill, Phase.fill?]) hb)
    cases ho with
    | runOut _ _ _ hlen => exact .of_single hnone hown hfilling (.inr (hfilling.primaries ▸ hlen))
    | skipped _ _ _ u r hlen hu => exact .of_single hnone hown (hfilling.skip hu) (.inl rfl)
    | chosen _ _ _ u r hlen hu => exact .of_single hnone hown (hfilling.choose hu) (.inl rfl)
    | filled _ _ _ hlen =>
      refine .of_none (fun b => ?_) (hfilling.primaries ▸ hlen)
      by_cases hb : b = .unit t
      · exact hb ▸ hown.trans k.fill?_phase
      · exact hnone b hb
  | aside hph hafter haside =>
    refine h.keep (by simpa using haside.settled) (fun b => ?_) fun b hb hb' => ?_
    · by_cases hbt : b = .unit t
      · rw [hbt, hown, hafter, hfill, hph]
      · exact hother b hbt
    · cases hb'.symm.trans hinside
      simp [hfill, hph] at hb

end Fillers

/-! ### Looking at the round -/

/-- Whether a place is about to look at the round. -/
def Phase.checks : Phase → Bool
  | check _ => true
  | _ => false

/-- If the round is filled, one of its primaries can make progress, or whoever is inside the
critical section is about to look whether the round is over. -/
def Watched (sys : System) : Prop :=
  sys.state.live.primaries ≤ sys.state.primaries.length →
    (∃ t ∈ sys.state.primaries, sys.state.canProgress t = true) ∨
      ∃ a ph, sys.inside = some a ∧ sys.phase? a = some ph ∧ ph.checks = true

namespace Watched

variable {sys sys' : System} {a : Agent}

/-- Unless somebody is about to look at the round, a change that takes nobody's progress keeps the
round watched. -/
lemma keep (h : Watched sys)
    (hidle : ∀ a ph, sys.inside = some a → sys.phase? a = some ph → ph.checks = false)
    (hsettled : State.Settled sys.state sys'.state)
    (hprogress : ∀ u, sys.state.canProgress u = true → sys'.state.canProgress u = true) :
    Watched sys' := by
  intro hfull
  rw [hsettled.primaries, hsettled.live] at hfull
  rcases h hfull with ⟨t, ht, hcan⟩ | ⟨a, ph, hinside, hph, hchecks⟩
  · exact .inl ⟨t, hsettled.primaries ▸ ht, hprogress t hcan⟩
  · rw [hidle a ph hinside hph] at hchecks
    cases hchecks

/-- A thread that starts afresh as a primary can make progress. -/
lemma canProgress_choose {s : State} (hs : s.Sound) {t : ThreadId} {r : ThreadRecord}
    (hr : s.record? t = some r) (hterminated : r.terminated = false) (hnew : t ∉ s.primaries) :
    (s.choose t).canProgress t = true := by
  have hp : ¬ r.primary = true := mt (hs.seating.primary_of_mem hr).mp hnew
  have hflags := mt (hs.seating.truthful t r hr).primary hp
  simp only [not_or, Bool.not_eq_true] at hflags
  obtain ⟨hfinished, hwaiting, -, hqueued⟩ := hflags
  simp only [ne_eq, Decidable.not_not] at hqueued
  simp [State.canProgress, record?_choose, hr, ThreadRecord.canProgress, hterminated, hfinished,
    hwaiting, hqueued]

/-- What a thread does keeps the round watched. -/
theorem stretch (h : Watched sys) (hfillers : Fillers sys) (hsound : sys.state.Sound)
    {t : ThreadId} {op : Operation} {ph : Phase} {eligible : ThreadId → Bool} {o : Outcome}
    (hinside : sys.inside = some (.unit t))
    (hcall : sys.calls.get? (.unit t) = some ⟨op, .thread t ph⟩)
    (ho : Stretch eligible sys.state t ph o) : Watched (sys.apply (.unit t) op o) := by
  have hph : sys.phase? (.unit t) = some ph := by simp [System.phase?, hcall, Point.phase?]
  have hkeep : ph.checks = false → State.Settled sys.state (o.state sys.state) →
      (∀ u, sys.state.canProgress u = true → (o.state sys.state).canProgress u = true) →
      Watched (sys.apply (.unit t) op o) := by
    intro hchecks hsettled hprogress
    refine h.keep (fun a ph' ha hph' => ?_) (by simpa using hsettled) (by simpa using hprogress)
    cases ha.symm.trans hinside
    exact Option.some_inj.mp (hph.symm.trans hph') ▸ hchecks
  -- Whoever changes a flag of a primary looks at the round next.
  have hcheck : ∀ s' k, o = .goto s' (.thread t (.check k)) →
      Watched (sys.apply (.unit t) op o) := by
    rintro s' k rfl -
    refine .inr ⟨.unit t, .check k, rfl, ?_, rfl⟩
    rw [System.phase?, System.get?_calls_apply, if_pos rfl]
    rfl
  have hempty : ∀ s' p, o = .goto s' p → s'.primaries = [] → 0 < s'.live.primaries →
      Watched (sys.apply (.unit t) op o) := by
    rintro s' p rfl hprimaries hpositive hfull
    rw [System.state_apply, Outcome.state, hprimaries] at hfull
    exact absurd hfull (Nat.not_le.mpr hpositive)
  have hpositive : 0 < sys.state.staged.primaries := hsound.seating.staged.1
  have hturn : ∀ slot u, sys.state.canProgress u = true →
      (sys.state.afterTurn t slot).canProgress u = true :=
    fun slot u hu => (calm_afterTurn slot).canProgress hu
  cases ho with
  | finished | notNext | queued | retired => exact hcheck _ _ rfl
  | bootstrap | bootstrapRetirement => exact hempty _ _ rfl (by simp) (by simpa)
  | closed =>
    have hlive : sys.state.nextRound.live = sys.state.staged := live_beginRound
    exact hempty _ _ rfl primaries_beginRound (hlive ▸ hpositive)
  | stillOpen k ph' hk hopen =>
    intro hfull
    exact .inl (hopen.resolve_left (Nat.not_lt.mpr hfull))
  | left hopen =>
    intro hfull
    exact .inl (hopen.resolve_left (Nat.not_lt.mpr hfull))
  | chosen index plan k u r hlen hu hr hterminated heligible =>
    have hfill : sys.fill? (.unit t) = some (index, plan) := by
      simp [System.fill?, hph, Phase.fill?]
    have hfilling := (hfillers.filling (.unit t) index plan hfill).1
    exact fun _ => .inl ⟨u, List.mem_append_right _ (List.mem_singleton.mpr rfl),
      canProgress_choose hsound hr hterminated (hfilling.not_mem hsound.roster hu)⟩
  | filled index plan k hlen =>
    exact hkeep rfl ⟨rfl, rfl, rfl, List.prefix_rfl⟩ fun u hu =>
      (calm_recordStart plan.order).canProgress hu
  | turn slot | refused r slot | overflowed r slot =>
    exact hkeep rfl (settled_afterTurn slot) (hturn slot)
  | granted l k slot | staged r slot =>
    exact hkeep rfl ((settled_afterTurn slot).trans ⟨rfl, rfl, rfl, List.prefix_rfl⟩) (hturn slot)
  | _ => exact hkeep rfl (.refl _) fun _ => id

end Watched

end RoundScheduler
