import RoundScheduler.Proofs.TurnOrder

/-!
# Nobody starves within a round

The test for the end of a round looks at the flags of the primaries and never at the total order.
All the same it throws steps away only where the next one belongs to a thread that is in the queue
of a lock. Such a thread took a step of the round before, so the first pass over the slots is behind
it by then: whoever is a primary of a round takes a step in it or retires in it.
-/

namespace RoundScheduler

open State

namespace State

variable {s s' : State} {t u : ThreadId} {l : LockId}

/-! ### Threads in queues -/

/-- A thread is in the queue of a lock, and linked to it. -/
def IsQueued (s : State) (t : ThreadId) : Prop :=
  ∃ l k, s.linkOf? t = some l ∧ s.lock? l = some k ∧ t ∈ k.queue

lemma Queues.isQueued (h : Queues s) (hlink : s.linkOf? t = some l) : s.IsQueued t := by
  obtain ⟨k, hk, hmem⟩ := (h.linked t l).mp hlink
  exact ⟨l, k, hlink, hk, hmem⟩

/-- Whoever is in a queue took a turn in the current round. -/
def Served (s : State) : Prop :=
  ∀ t l, s.linkOf? t = some l → ∃ slot, .turn s.round t slot ∈ s.events

/-- Nobody comes into a queue by a change that starts no round, unless by a step that the change
records. -/
lemma Served.keep (h : Served s) (hround : s'.round = s.round)
    (hevents : s.events ⊆ s'.events)
    (hlinks : ∀ t l, s'.linkOf? t = some l →
      s.linkOf? t = some l ∨ ∃ slot, .turn s.round t slot ∈ s'.events) : Served s' := by
  intro t l hlink
  rw [hround]
  rcases hlinks t l hlink with hold | hnew
  · obtain ⟨slot, hturn⟩ := h t l hold
    exact ⟨slot, hevents hturn⟩
  · exact hnew

/-- Nobody is in a queue at the start of a round. -/
lemma Served.beginRound (hclear : Cleared s) (hroster : Roster s) : Served s.beginRound := by
  intro t l hlink
  have hnone := (hclear.unflagged (t := t) hroster.keys_nodup).linked
  exact absurd (hlink.symm.trans hnone) (Option.some_ne_none l)

lemma linkOf?_enqueue_of_ne (hu : u ≠ t) : (s.enqueue l t).linkOf? u = s.linkOf? u :=
  linkOf?_of_map record?_enqueue fun _ => if_neg hu

/-- Every change keeps it. -/
theorem Change.served {w : Option ThreadId} (hc : Change s w s') (hs : Sound s) (h : Served s) :
    Served s' := by
  have hmem := hc.events_subset
  have hturn : ∀ t slot u m, (s.afterTurn t slot).linkOf? u = some m → s.linkOf? u = some m :=
    fun t slot u m hlink => (linkOf?_afterTurn slot).symm.trans hlink
  cases hc with
  | finish t slot =>
    exact h.keep rfl hmem fun u m hlink =>
      .inl ((linkOf?_of_map record?_finish fun _ => rfl).symm.trans hlink)
  | awaitTurn t slot =>
    exact h.keep rfl hmem fun u m hlink =>
      .inl ((linkOf?_of_map record?_awaitTurn fun _ => rfl).symm.trans hlink)
  | turn t slot | grant t slot | stage t slot =>
    exact h.keep (round_afterTurn slot) hmem fun u m hlink => .inl (hturn t slot u m hlink)
  | enqueue t slot l k =>
    refine h.keep (round_afterTurn slot) hmem fun u m hlink => ?_
    by_cases hu : u = t
    · exact .inr ⟨slot, by simp [hu]⟩
    · rw [linkOf?_enqueue_of_ne hu] at hlink
      exact .inl (hturn t slot u m hlink)
  | retire t slot =>
    exact h.keep (round_afterRetirement slot) hmem fun u m hlink =>
      .inl ((linkOf?_of_map (record?_afterRetirement slot) fun _ => rfl).symm.trans hlink)
  | bootstrap hround => exact .beginRound (hs.seating.cleared_of_unbegun hround) hs.roster
  | next => exact .beginRound (hs.seating.closeRound_cleared hs.roster) hs.roster.closeRound
  | choose t =>
    exact h.keep rfl hmem fun u m hlink =>
      .inl ((linkOf?_of_map record?_choose fun _ => rfl).symm.trans hlink)
  | unlink t l =>
    refine h.keep rfl hmem fun u m hlink => .inl ?_
    rw [Queues.linkOf?_detach] at hlink
    exact (Option.ite_none_left_eq_some.mp hlink).2
  | handOver t l k next =>
    refine h.keep rfl hmem fun u m hlink => .inl ?_
    have hdetach : (s.handOver l next).linkOf? u = (s.detach [next]).linkOf? u := by
      rw [linkOf?, record?_handOver, linkOf?, record?_detach]
    rw [hdetach, Queues.linkOf?_detach] at hlink
    exact (Option.ite_none_left_eq_some.mp hlink).2
  | dropLock l hl =>
    rw [dropLock_eq hl] at hmem ⊢
    exact h.keep rfl hmem fun _ _ => .inl
  | _ => exact h.keep rfl hmem fun _ _ => .inl

/-- An arrival keeps it. -/
lemma Arrival.served (ha : Arrival s s') (hs : Sound s) (h : Served s) : Served s' :=
  h.keep ha.settled.round (fun _ he => ha.events_eq ▸ he) fun _ _ hlink =>
    .inl ((ha.calm hs).linked hlink)

/-! ### The end of a round -/

/-- When nobody can make progress, the next step, if there is one, belongs to a thread that is in a
queue: it is neither finished nor retired, because it has a step left, and it does not wait for its
turn, because its turn has come. -/
lemma Sound.queued_of_stuck (h : Sound s) (hfull : s.live.primaries ≤ s.primaries.length)
    (hstuck : ∀ t ∈ s.primaries, s.canProgress t = false) :
    s.live.order = [] ∨ ∃ t, s.headPrimary? = some t ∧ s.IsQueued t := by
  cases horder : s.live.order with
  | nil => exact .inl rfl
  | cons slot left =>
    right
    have hslot : slot ∈ s.live.order := by simp [horder]
    have hlt : slot < s.primaries.length := Nat.lt_of_lt_of_le (h.seating.bounded slot hslot) hfull
    obtain ⟨t, ht⟩ : ∃ t, s.primaries[slot]? = some t := ⟨_, List.getElem?_eq_getElem hlt⟩
    obtain ⟨r, hr, -⟩ := h.seating.primary_of_slot ht
    have htrue := h.seating.truthful t r hr
    have hfinished : r.finished = false :=
      Bool.eq_false_iff.mpr fun hf => htrue.finished slot ht hf hslot
    have hterminated : r.terminated = false :=
      Bool.eq_false_iff.mpr fun hf => htrue.terminated slot ht hf hslot
    have hwaiting : r.waitingForTurn = false :=
      Bool.eq_false_iff.mpr fun hw => (htrue.waiting slot ht hw).2 (by simp [horder])
    have hcan := hstuck t (List.mem_of_getElem? ht)
    cases hlink : r.enqueued with
    | none =>
      simp [canProgress, hr, ThreadRecord.canProgress, hfinished, hterminated, hwaiting, hlink]
        at hcan
    | some l =>
      refine ⟨t, ?_, h.queues.isQueued (linkOf?_eq_some_iff.mpr ⟨r, hr, hlink⟩)⟩
      simp [headPrimary?, RoundConfig.head?, horder, ht]

/-- A slot has turns in a round if some thread took one for it. -/
lemma mem_turnSlots {k : Nat} {slot : Slot} :
    slot ∈ s.journal.schedule.turnSlots k ↔ ∃ t, .turn k t slot ∈ s.events := by
  rw [Schedule.turnSlots, List.mem_map]
  constructor
  · rintro ⟨⟨k', t, slot'⟩, hturn, rfl⟩
    obtain ⟨hmem, hk⟩ := List.mem_filter.mp hturn
    obtain rfl : k' = k := by simpa using hk
    exact ⟨t, Schedule.mem_turns.mp hmem⟩
  · rintro ⟨t, hturn⟩
    exact ⟨(k, t, slot), List.mem_filter.mpr ⟨Schedule.mem_turns.mpr hturn, by simp⟩, rfl⟩

/-- When no step is left, or the next one belongs to a thread in a queue, the first pass over the
slots was taken. -/
lemma RoundOpen.firstPass_subset {k n steps : Nat} (h : RoundOpen s k n steps) (hsteps : 0 < steps)
    (hchronicle : Chronicle s) (hs : Sound s) (hserved : Served s)
    (hnext : s.live.order = [] ∨ ∃ t, s.headPrimary? = some t ∧ s.IsQueued t) :
    keptPass n (s.journal.schedule.passLimit k s.primaries) 0 ⊆
      s.journal.schedule.turnSlots k := by
  obtain rfl := h.round
  have horder := h.order
  rcases hnext with hempty | ⟨t, hhead, l, -, hlink, -⟩
  · rw [hempty, List.append_nil] at horder
    rw [horder]
    exact (keptPass_prefix_keptPasses n _ hsteps).subset
  · obtain ⟨slot, hslot, ht⟩ := Option.bind_eq_some_iff.mp hhead
    obtain ⟨left, hleft⟩ := List.head?_eq_some_iff.mp hslot
    -- Whoever is in a queue had a step of the same slot before.
    obtain ⟨slot', hturn⟩ := hserved t l hlink
    obtain rfl : slot' = slot := hs.seating.slot_unique (hchronicle.named t slot' hturn) ht
    rw [hleft] at horder
    exact keptPass_subset_of_next_again hsteps horder (mem_turnSlots.mpr ⟨t, hturn⟩)

/-- Once the first pass was taken, every primary took a turn in the round or retired in it. -/
lemma RoundOpen.turn_or_terminated {k n steps : Nat} (h : RoundOpen s k n steps)
    (hchronicle : Chronicle s) (hs : Sound s)
    (hfirst : keptPass n (s.journal.schedule.passLimit k s.primaries) 0 ⊆
      s.journal.schedule.turnSlots k) (ht : t ∈ s.primaries) :
    (∃ slot, .turn k t slot ∈ s.events) ∨ .terminated k t ∈ s.events := by
  obtain rfl := h.round
  obtain ⟨slot, hslot⟩ := List.mem_iff_getElem?.mp ht
  by_cases hterminated : .terminated s.round t ∈ s.events
  · exact .inr hterminated
  · have hlt : slot < n := Nat.lt_of_lt_of_le (List.getElem?_eq_some_iff.mp hslot).1
      (h.primaries ▸ hs.seating.length_le)
    have hfree : s.journal.schedule.passLimit s.round s.primaries slot = none := by
      have hnot : .terminated s.round t ∉ s.journal.schedule.events := hterminated
      simp [Schedule.passLimit, hslot, hnot]
    have hpass : slot ∈ keptPass n (s.journal.schedule.passLimit s.round s.primaries) 0 :=
      List.mem_filter.mpr ⟨List.mem_range.mpr hlt, by simp [hfree]⟩
    obtain ⟨u, hturn⟩ := mem_turnSlots.mp (hfirst hpass)
    obtain rfl : u = t := Option.some_inj.mp ((hchronicle.named u slot hturn).symm.trans hslot)
    exact .inl ⟨slot, hturn⟩

end State

/-! ### Rounds of a run -/

namespace System

variable {c : Config} {sys next mid : System} {k : Nat}

theorem served_of_reachable (h : Reachable c sys) : Served sys.state := by
  induction h using Reachable.induction with
  | initial sys hstart =>
    obtain ⟨rounds, -, rfl⟩ := Invariant.exists_rounds_of_initial hstart
    exact nofun
  | step sys sys' hreach hs ih =>
    have hinv := Invariant.of_reachable hreach
    rcases hinv.effect hs with ⟨w, hchange⟩ | harrival
    · exact hchange.served hinv.sound ih
    · exact harrival.served hinv.sound ih

/-- When a move closes a round, no step is left or the next one belongs to a thread in a queue. -/
lemma queued_of_closing (h : Reachable c sys) (hs : Step sys next) (hbegun : sys.state.round ≠ 0)
    (hne : next.state.round ≠ sys.state.round) :
    sys.state.live.order = [] ∨ ∃ t, sys.state.headPrimary? = some t ∧ sys.state.IsQueued t := by
  have hinv := Invariant.of_reachable h
  rcases hinv.effect hs with ⟨w, hchange⟩ | harrival
  · obtain ⟨hfull, hstuck⟩ := hchange.stuck_of_round_ne hbegun hne
    exact hinv.sound.queued_of_stuck hfull hstuck
  · exact absurd harrival.settled.round hne

/-- When a move closes a round, every primary took a turn in it or retired in it. -/
lemma turn_or_terminated_of_closing (h : Reachable c sys) (hs : Step sys next)
    (hbegun : sys.state.round ≠ 0) (hne : next.state.round ≠ sys.state.round) {t : ThreadId}
    (ht : t ∈ sys.state.primaries) :
    (∃ slot, .turn sys.state.round t slot ∈ sys.state.events) ∨
      .terminated sys.state.round t ∈ sys.state.events := by
  obtain ⟨before, after, hbegins, hpath⟩ :=
    exists_beginsRound h (Nat.one_le_iff_ne_zero.mpr hbegun) (Nat.le_refl _)
  have hsteps : 0 < before.state.staged.stepsPerPrimary :=
    (Invariant.of_reachable hbegins.reachable).sound.seating.staged.eq_passes.2
  have hrecorded := Recorded.of_reachable h
  have hhistory := Recorded.roundHistory_path (hbegins.reachable.step hbegins.step) hpath hbegun
    (.inl hbegins.roundOpen.2)
  rcases hhistory with hopen | ⟨ps, hclosed⟩
  · have hfirst := hopen.firstPass_subset hsteps hrecorded.chronicle hrecorded.invariant.sound
      (served_of_reachable h) (queued_of_closing h hs hbegun hne)
    exact hopen.turn_or_terminated hrecorded.chronicle hrecorded.invariant.sound hfirst ht
  · exact absurd hclosed.round (Nat.lt_irrefl _)

/-- The primaries of a round that was closed are those that it had when a move closed it, and the
events recorded until then stay. -/
lemma exists_closing (h : Reachable c sys) (hk : 1 ≤ k) (hround : k < sys.state.round) :
    ∃ before after, BeginsRound c (k + 1) before after ∧ Path after sys ∧
      sys.roundPrimaries? k = some before.state.primaries ∧
      ∀ e ∈ before.state.events, e ∈ sys.state.events := by
  obtain ⟨before, after, hcloses, hpath⟩ := exists_beginsRound h (Nat.succ_pos k) hround
  have hbefore : before.state.round = k := Nat.succ.inj hcloses.round_before
  have hbegun : before.state.round ≠ 0 := by omega
  obtain ⟨-, new, hevents, -⟩ :=
    Path.exists_events hcloses.reachable (.head hcloses.step hpath)
  have hmem : ∀ e ∈ before.state.events, e ∈ sys.state.events := fun e he =>
    hevents ▸ List.mem_append_left new he
  have hrecorded := Recorded.of_reachable hcloses.reachable
  obtain ⟨order, hstart⟩ := hrecorded.announced.recorded_of_round_ne hrecorded.invariant
    hcloses.step (by rw [hcloses.round_after, hbefore]; exact Nat.succ_ne_self k) hbegun
  rw [hbefore] at hstart
  -- The start of a round that is over names one list of primaries.
  obtain ⟨begin, begun, hbegins, hlater⟩ := exists_beginsRound h hk (Nat.le_of_lt hround)
  have hhistory := Recorded.roundHistory_path (hbegins.reachable.step hbegins.step) hlater
    (by omega) (.inl hbegins.roundOpen.2)
  rcases hhistory with hopen | ⟨ps, hclosed⟩
  · have hcurrent := hopen.round
    omega
  · obtain rfl := hclosed.unique before.state.primaries order (hmem _ hstart)
    exact ⟨before, after, hcloses, hpath,
      roundPrimaries?_eq hround ⟨order, hmem _ hstart⟩ hclosed.unique, hmem⟩

end System

/-- A round is closed only when no step of it is left or the next one belongs to a thread in the
queue of a lock; and every primary of a closed round took a turn in it or retired in it. -/
theorem no_starvation_within_round {c : Config} {sys : System} (h : System.Reachable c sys) :
    (∀ next, System.Step sys next → 1 ≤ sys.state.round →
      next.state.round ≠ sys.state.round →
        sys.state.live.order = [] ∨
          ∃ t, sys.state.headPrimary? = some t ∧ sys.state.IsQueued t) ∧
    ∀ k, 1 ≤ k → k < sys.state.round → ∃ ps, sys.roundPrimaries? k = some ps ∧
      ∀ t ∈ ps, (∃ slot, .turn k t slot ∈ sys.state.events) ∨
        .terminated k t ∈ sys.state.events := by
  refine ⟨fun next hs hbegun => System.queued_of_closing h hs (Nat.one_le_iff_ne_zero.mp hbegun),
    fun k hk hround => ?_⟩
  obtain ⟨before, after, hcloses, -, hprimaries, hmem⟩ := System.exists_closing h hk hround
  refine ⟨before.state.primaries, hprimaries, fun t ht => ?_⟩
  obtain rfl : before.state.round = k := Nat.succ.inj hcloses.round_before
  have hserved := System.turn_or_terminated_of_closing hcloses.reachable hcloses.step (by omega)
    (by rw [hcloses.round_after]; exact Nat.succ_ne_self _) ht
  exact hserved.imp (fun ⟨slot, hturn⟩ => ⟨slot, hmem _ hturn⟩) (hmem _)

/-! ### A round that closes before its steps are taken -/

/-- The moves by which the first of two threads acquires a lock, the second one waits for it, and
the first one uses up its two steps and looks at the round. -/
def stepsLeftBehind : List Move :=
  [.newLock, .call (.client 0) (.submit .noop), .advance, .advance,
    .call (.client 0) (.submit .noop), .advance, .advance,
    .call (.unit ⟨0⟩) (.lock ⟨0⟩), .advance, .advance, .advance, .advance, .advance,
    .call (.unit ⟨1⟩) (.lock ⟨0⟩), .advance, .advance, .advance, .advance,
    .call (.unit ⟨0⟩) .turn, .advance, .advance,
    .call (.unit ⟨0⟩) .turn, .advance, .advance]

/-- The round closes although the second thread has a step left, because that thread is in the queue
of the lock; it took its turn of the first pass. -/
theorem no_starvation_within_round_stepsLeftBehind :
    ∃ sys next, System.run? twoStepConfig (fun _ => true) stepsLeftBehind = some sys ∧
      System.Step sys next ∧ sys.state.live.order = [1] ∧
      (∃ t, sys.state.headPrimary? = some t ∧ sys.state.IsQueued t) ∧
      next.roundPrimaries? 1 = some [⟨0⟩, ⟨1⟩] ∧
      ((∃ slot, .turn 1 ⟨1⟩ slot ∈ next.state.events) ∨
        .terminated 1 ⟨1⟩ ∈ next.state.events) := by
  obtain ⟨sys, next, hsys, hmove, horder, hround, hround', hprimaries⟩ : ∃ sys next,
      System.run? twoStepConfig (fun _ => true) stepsLeftBehind = some sys ∧
      sys.move? (fun _ => true) .advance = some next ∧ sys.state.live.order = [1] ∧
      sys.state.round = 1 ∧ next.state.round = 2 ∧
      next.roundPrimaries? 1 = some [⟨0⟩, ⟨1⟩] := ⟨_, _, rfl, rfl, rfl, rfl, rfl, rfl⟩
  have hreach := System.reachable_of_run? hsys
  have hs : System.Step sys next := ⟨_, _, hmove⟩
  have hqueued := (no_starvation_within_round hreach).1 next hs (by omega) (by omega)
  obtain ⟨ps, hps, hserved⟩ :=
    (no_starvation_within_round (hreach.step hs)).2 1 (Nat.le_refl 1) (by omega)
  obtain rfl : [⟨0⟩, ⟨1⟩] = ps := Option.some_inj.mp (hprimaries.symm.trans hps)
  exact ⟨sys, next, hsys, hs, horder, hqueued.resolve_left (by simp [horder]), hprimaries,
    hserved ⟨1⟩ (by simp)⟩

end RoundScheduler
