import Mathlib.Data.List.Nodup
import Mathlib.Data.List.Pairwise
import RoundScheduler.Proofs.Formation
import RoundScheduler.Proofs.LockQueues
import RoundScheduler.Proofs.Reconfiguration

/-!
# Recorded schedules are well formed

Events are recorded by whoever is inside the critical section, also on behalf of a sleeping thread
that is handed a lock, and the start of a round is recorded only once its primaries are chosen, when
some of them have taken turns already. This file says what a change records as a block and what the
blocks amount to along a run: which rounds have a recorded start, who takes part in the events of a
round, where grants without waiting stand, and that retired threads are not heard of again.
-/

namespace RoundScheduler

open State

/-! ### Events that stand after others -/

namespace Event

/-- The second event may stand after the first one: if a thread retired by the first one, it takes
no part in the second one, which names it neither as the start of a later round. -/
def Precedes (e e' : Event) : Prop :=
  ∀ t, e.termination? = some t → e'.actor? ≠ some t ∧
    ∀ k ps order, e' = .roundStarted k ps order → e.round < k → t ∉ ps

/-- An event with a termination is one. -/
lemma eq_terminated {e : Event} {t : ThreadId} (h : e.termination? = some t) :
    e = .terminated e.round t := by
  cases e <;> cases h
  rfl

/-- Anything may stand after an event that is no retirement. -/
lemma precedes_of_none {e e' : Event} (h : e.termination? = none) : Precedes e e' :=
  fun t ht => by simp [h] at ht

end Event

/-- Every lock that is granted without waiting is granted right after the turn that asked for it. -/
def PromptGrants (es : List Event) : Prop :=
  ∀ earlier later k l t, es = earlier ++ .lockAcquired k l t false :: later →
    ∃ before slot, earlier = before ++ [.turn k t slot]

namespace PromptGrants

variable {es new : List Event}

/-- What is recorded later may be appended if each part has its turns in front of its grants. -/
lemma append (h : PromptGrants es) (hnew : PromptGrants new) : PromptGrants (es ++ new) := by
  intro earlier later k l t heq
  rcases List.append_eq_append_iff.mp heq with ⟨mid, rfl, hmid⟩ | ⟨mid, hes, hmid⟩
  · obtain ⟨before, slot, rfl⟩ := hnew mid later k l t hmid
    exact ⟨es ++ before, slot, (List.append_assoc ..).symm⟩
  · cases mid with
    | nil =>
      -- The grant would be the first of the new events.
      obtain ⟨before, slot, hnil⟩ := hnew [] later k l t hmid.symm
      simp at hnil
    | cons e rest =>
      obtain ⟨rfl, -⟩ := List.cons.inj hmid
      exact h earlier rest k l t hes

/-- Without events there is no grant. -/
lemma nil : PromptGrants [] := fun earlier later k l t heq => by simp at heq

/-- A single event may be anything but a grant of a free lock. -/
lemma singleton {e : Event} (he : ∀ k l t, e ≠ .lockAcquired k l t false) : PromptGrants [e] := by
  intro earlier later k l t heq
  obtain ⟨-, hmem⟩ : earlier = [] ∧ e = .lockAcquired k l t false := by
    cases earlier with
    | nil => exact ⟨rfl, (List.cons.inj heq).1⟩
    | cons x xs => simp at heq
  exact absurd hmem (he k l t)

/-- A turn may be followed by the grant of the lock that it asks for. -/
lemma granted (k : Nat) (t : ThreadId) (slot : Slot) (l : LockId) :
    PromptGrants [.turn k t slot, .lockAcquired k l t false] := by
  intro earlier later k' l' t' heq
  match earlier with
  | [] => simp at heq
  | [e] =>
    obtain ⟨rfl, hrest⟩ := List.cons.inj heq
    obtain ⟨hgrant, -⟩ := List.cons.inj hrest
    cases hgrant
    exact ⟨[], slot, rfl⟩
  | _ :: _ :: _ => simp at heq

end PromptGrants

namespace State

variable {s s' : State} {t : ThreadId} {w : Option ThreadId} {new : List Event}

/-! ### What a change records -/

/-- The events that a change may record. -/
structure Block (s : State) (new : List Event) : Prop where
  /-- Nothing is recorded before the first round. -/
  begun : new ≠ [] → s.round ≠ 0
  /-- Primaries act that have not retired. -/
  actor : ∀ e ∈ new, ∀ t, e.actor? = some t → t ∈ s.primaries ∧ s.hasTerminated t = false
  /-- The start of a round names its primaries. -/
  started : ∀ k ps order, .roundStarted k ps order ∈ new → ps = s.primaries
  inner : new.Pairwise Event.Precedes
  prompt : PromptGrants new

namespace Block

/-- A change may record nothing. -/
lemma nil : Block s [] := ⟨fun h => absurd rfl h, nofun, nofun, .nil, .nil⟩

/-- An event of a thread. -/
lemma act (hs : Sound s) {e : Event} (ht : t ∈ s.primaries) (halive : s.hasTerminated t = false)
    (hactor : e.actor? = some t) (he : ∀ k l t, e ≠ .lockAcquired k l t false) : Block s [e] where
  begun _ hround := by simp [hs.seating.unbegun hround] at ht
  actor e' he' u hu := by
    obtain rfl := List.mem_singleton.mp he'
    cases hu.symm.trans hactor
    exact ⟨ht, halive⟩
  started k ps order hps := by
    rw [← List.mem_singleton.mp hps] at hactor
    cases hactor
  inner := List.pairwise_singleton _ _
  prompt := .singleton he

/-- An event that is about no thread. -/
lemma about (hround : s.round ≠ 0) {e : Event} (hactor : e.actor? = none)
    (hstarted : ∀ k ps order, e = .roundStarted k ps order → ps = s.primaries) : Block s [e] where
  begun _ := hround
  actor e' he' u hu := by
    rw [List.mem_singleton.mp he', hactor] at hu
    cases hu
  started k ps order hps := hstarted k ps order (List.mem_singleton.mp hps).symm
  inner := List.pairwise_singleton _ _
  prompt := .singleton fun k l t he => by simp [he, Event.actor?] at hactor

/-- A turn, with what it is used for. -/
lemma turn (hs : Sound s) {slot : Slot} {rest : List Event} (hslot : s.primaries[slot]? = some t)
    (hhead : s.live.order.head? = some slot)
    (hrest : ∀ e ∈ rest, (e.actor? = some t ∨ e.actor? = none) ∧ e.termination? = none ∧
      ∀ k ps order, e ≠ .roundStarted k ps order)
    (hprompt : PromptGrants (.turn s.round t slot :: rest)) :
    Block s (.turn s.round t slot :: rest) := by
  have ht := List.mem_of_getElem? hslot
  obtain ⟨r, hr, -⟩ := hs.seating.primary_of_slot hslot
  -- Who retired has no steps left.
  have halive : s.hasTerminated t = false := by
    rw [hasTerminated, hr, Option.any_some]
    refine Bool.eq_false_iff.mpr fun hterminated => ?_
    exact (hs.seating.truthful t r hr).terminated slot hslot hterminated
      (List.mem_of_mem_head? hhead)
  constructor
  case begun => exact fun _ hround => by simp [hs.seating.unbegun hround] at ht
  case actor =>
    intro e he u hu
    suffices u = t by exact this ▸ ⟨ht, halive⟩
    rcases List.mem_cons.mp he with rfl | he
    · exact (Option.some_inj.mp hu).symm
    · rcases (hrest e he).1 with hactor | hactor
      · exact Option.some_inj.mp (hu.symm.trans hactor)
      · cases hu.symm.trans hactor
  case started =>
    intro k ps order hps
    rcases List.mem_cons.mp hps with hps | hps
    · cases hps
    · exact absurd rfl ((hrest _ hps).2.2 k ps order)
  case inner =>
    refine List.pairwise_of_forall_mem_list fun e he e' _ => Event.precedes_of_none ?_
    rcases List.mem_cons.mp he with rfl | he
    · rfl
    · exact (hrest e he).2.1
  case prompt => exact hprompt

end Block

/-- Every change records such a block, if nobody waits for a lock who has retired. -/
theorem Change.exists_block (hc : Change s w s') (hs : Sound s)
    (hqueued : ∀ t l, s.linkOf? t = some l → s.hasTerminated t = false) :
    ∃ new, s'.events = s.events ++ new ∧ Block s new := by
  have hnothing : s'.events = s.events → ∃ new, s'.events = s.events ++ new ∧ Block s new :=
    fun hevents => ⟨[], by simpa using hevents, .nil⟩
  cases hc with
  | turn t slot hslot hhead | enqueue t slot _ _ hslot hhead =>
    exact ⟨_, events_afterTurn slot, .turn hs hslot hhead (by simp) (.singleton (by simp))⟩
  | grant t slot l k hslot hhead =>
    exact ⟨_, events_granted slot, .turn hs hslot hhead
      (by simp [Event.actor?, Event.termination?]) (.granted s.round t slot l)⟩
  | stage t slot n steps c hslot hhead =>
    have hprompt : PromptGrants ([.turn s.round t slot] ++ [.reconfigured s.round n steps]) :=
      (PromptGrants.singleton (by simp)).append (.singleton (by simp))
    exact ⟨_, events_staged slot n steps c, .turn hs hslot hhead
      (by simp [Event.actor?, Event.termination?]) hprompt⟩
  | retire t slot hslot halive =>
    exact ⟨_, events_afterRetirement slot,
      .act hs (List.mem_of_getElem? hslot) halive rfl (by simp)⟩
  | start order hround =>
    refine ⟨_, events_recordStart order, .about hround rfl fun k ps order' heq => ?_⟩
    cases heq
    rfl
  | handOver t l k next rest hk howner hqueue =>
    have hlink := hs.queues.linkOf?_of_head hk hqueue
    exact ⟨_, events_handOver, .act hs (hs.seating.mem_primaries_of_linked hlink)
      (hqueued next l hlink) rfl (by simp)⟩
  | bootstrap => exact hnothing events_beginRound
  | next => exact hnothing events_nextRound
  | dropLock l hl => exact hnothing (events_dropLock hl)
  | _ => exact hnothing rfl

/-- Within a round nobody stops being a primary. -/
lemma Change.primaries_subset (hc : Change s w s') (hround : s'.round = s.round) :
    s.primaries ⊆ s'.primaries := by
  have hsame : s'.primaries = s.primaries → s.primaries ⊆ s'.primaries := fun heq =>
    heq ▸ List.Subset.refl _
  cases hc with
  | turn t slot | grant t slot | enqueue t slot | stage t slot =>
    exact hsame (primaries_afterTurn slot)
  | retire t slot => exact hsame (primaries_afterRetirement slot)
  | bootstrap => simp at hround
  | next => simp at hround
  | choose t => exact List.subset_append_left s.primaries [t]
  | dropLock l hl => exact hsame (by rw [dropLock_eq hl])
  | _ => exact hsame rfl

/-! ### What all events have in common -/

/-- The recorded events are well formed. -/
structure Annals (s : State) : Prop where
  begun : ∀ e ∈ s.events, 1 ≤ e.round
  prompt : PromptGrants s.events
  order : s.events.Pairwise Event.Precedes
  /-- Who takes part in an event is a primary of its round: of the current one, or of one whose
  start was recorded. -/
  acted : ∀ e ∈ s.events, ∀ t, e.actor? = some t →
    e.round = s.round ∧ t ∈ s.primaries ∨
      e.round < s.round ∧ ∃ ps order, .roundStarted e.round ps order ∈ s.events ∧ t ∈ ps

namespace Annals

/-- Nobody retires twice. -/
lemma distinct (h : Annals s) : s.events.Pairwise fun e e' =>
    ∀ t, e.termination? = some t → e'.termination? ≠ some t :=
  h.order.imp fun hprecedes t ht ht' =>
    (hprecedes t ht).1 (by rw [Event.eq_terminated ht']; rfl)

/-- A thread retires in one round only. -/
lemma round_unique (h : Annals s) {j k : Nat} (hj : .terminated j t ∈ s.events)
    (hk : .terminated k t ∈ s.events) : j = k := by
  by_contra hne
  have : Std.Symm fun e e' : Event => ∀ t, e.termination? = some t → e'.termination? ≠ some t :=
    ⟨fun _ _ hdistinct t ht ht' => hdistinct t ht' ht⟩
  exact h.distinct.forall hj hk (by simp [hne]) t rfl rfl

/-- Whoever retired in an earlier round is no primary. -/
lemma not_mem_primaries (h : Annals s) (hs : Sound s) (hchronicle : Chronicle s)
    (hregistered : Registered s) {k : Nat} (ht : .terminated k t ∈ s.events) (hk : k < s.round) :
    t ∉ s.primaries := by
  intro hmem
  obtain ⟨r, hr, -⟩ := (hs.seating.mem_iff t).mp hmem
  -- The record of a primary says only of the current round that its thread retired.
  have hterminated : s.hasTerminated t = true := by
    simp [hasTerminated, hr, (hchronicle.buried k t ht).2 r hr]
  exact Nat.ne_of_lt hk (h.round_unique ht (hregistered t hterminated))

/-- The events go on with a block. -/
lemma order_append (h : Annals s) (hs : Sound s) (hchronicle : Chronicle s)
    (hregistered : Registered s) (hblock : Block s new) (hnew : ∀ e ∈ new, e.round = s.round) :
    (s.events ++ new).Pairwise Event.Precedes := by
  refine List.pairwise_append.mpr ⟨h.order, hblock.inner, fun e he e' he' t ht => ?_⟩
  have hpast : .terminated e.round t ∈ s.events := Event.eq_terminated ht ▸ he
  refine ⟨fun hactor => ?_, fun k ps order heq hk => ?_⟩
  · obtain ⟨hmem, halive⟩ := hblock.actor e' he' t hactor
    exact hchronicle.not_terminated halive (hs.seating.isSome_of_mem hmem) _ hpast
  · subst heq
    rw [hblock.started k ps order he']
    have hround : k = s.round := hnew _ he'
    exact h.not_mem_primaries hs hchronicle hregistered hpast (hround ▸ hk)

end Annals

/-- Every change keeps the events well formed, provided that nobody waits for a lock who has retired
and that the start of a round that closes was recorded. -/
theorem Change.annals (hc : Change s w s') (hs : Sound s) (hchronicle : Chronicle s)
    (hregistered : Registered s)
    (hqueued : ∀ t l, s.linkOf? t = some l → s.hasTerminated t = false)
    (hrecorded : s'.round ≠ s.round → s.round ≠ 0 →
      ∃ order, .roundStarted s.round s.primaries order ∈ s.events)
    (h : Annals s) : Annals s' := by
  obtain ⟨new, hevents, hblock⟩ := hc.exists_block hs hqueued
  have hnew : ∀ e ∈ new, e.round = s.round := by
    obtain ⟨new', hevents', hnew⟩ := hc.exists_new
    exact List.append_cancel_left (hevents.symm.trans hevents') ▸ hnew
  have hkept := hc.events_subset
  constructor
  case begun =>
    intro e he
    rcases List.mem_append.mp (hevents ▸ he) with he | he
    · exact h.begun e he
    · rw [hnew e he]
      exact Nat.one_le_iff_ne_zero.mpr (hblock.begun (List.ne_nil_of_mem he))
  case prompt => exact hevents ▸ h.prompt.append hblock.prompt
  case order => exact hevents ▸ h.order_append hs hchronicle hregistered hblock hnew
  case acted =>
    intro e he t ht
    have hacted : e.round = s.round ∧ t ∈ s.primaries ∨
        e.round < s.round ∧ ∃ ps order, .roundStarted e.round ps order ∈ s.events ∧ t ∈ ps := by
      rcases List.mem_append.mp (hevents ▸ he) with he | he
      · exact h.acted e he t ht
      · exact .inl ⟨hnew e he, (hblock.actor e he t ht).1⟩
    rcases hacted with ⟨hround, hmem⟩ | ⟨hround, ps, order, hps, hmem⟩
    · rcases hc.round_eq with hsame | ⟨hnext, -⟩
      · exact .inl ⟨hround.trans hsame.symm, hc.primaries_subset hsame hmem⟩
      · -- The primaries of the round that closes are those that its start names.
        have hbegun : s.round ≠ 0 := fun hzero => by simp [hs.seating.unbegun hzero] at hmem
        obtain ⟨order, hstart⟩ := hrecorded (by omega) hbegun
        exact .inr ⟨by omega, s.primaries, order, hkept (hround.symm ▸ hstart), hmem⟩
    · refine .inr ⟨?_, ps, order, hkept hps, hmem⟩
      rcases hc.round_eq with hsame | ⟨hnext, -⟩ <;> omega

/-- Arrivals record nothing. -/
lemma Arrival.annals (ha : Arrival s s') (h : Annals s) : Annals s' := by
  have hround : s'.round = s.round := ha.settled.round
  have hprimaries : s'.primaries = s.primaries := ha.settled.primaries
  constructor
  case begun => exact ha.events_eq ▸ h.begun
  case prompt => exact ha.events_eq ▸ h.prompt
  case order => exact ha.events_eq ▸ h.order
  case acted =>
    rw [ha.events_eq, hround, hprimaries]
    exact h.acted

end State

/-! ### Which rounds have a recorded start -/

/-- The rounds whose starts were recorded, in this order. -/
def State.startedRounds (s : State) : List Nat := s.journal.schedule.roundStarts.map Prod.fst

/-- The rounds that were begun have a recorded start, each exactly one, except for a round that is
being filled. -/
structure Heralded (sys : System) : Prop where
  filling : ∀ a, (sys.fill? a).isSome →
    sys.state.startedRounds = List.range' 1 (sys.state.round - 1)
  filled : (∀ a, sys.fill? a = none) → sys.state.startedRounds = List.range' 1 sys.state.round

/-- The rounds that started are recorded in their order. -/
lemma State.startedRounds_eq {s s' : State} {new : List Event} (h : s'.events = s.events ++ new) :
    s'.startedRounds = s.startedRounds ++ (new.filterMap Event.roundStart?).map Prod.fst := by
  rw [startedRounds, schedule_eq h, Schedule.roundStarts, List.filterMap_append, List.map_append]
  rfl

namespace Heralded

variable {sys sys' : System}

/-- Nothing changes while whoever fills the round goes on with it, and nobody else begins to. -/
lemma keep (h : Heralded sys) (hround : sys'.state.round = sys.state.round)
    (hstarts : sys'.state.startedRounds = sys.state.startedRounds)
    (hfill : ∀ a, (sys'.fill? a).isSome = (sys.fill? a).isSome) : Heralded sys' where
  filling a ha := by
    rw [hstarts, hround]
    exact h.filling a (hfill a ▸ ha)
  filled hnone := by
    rw [hstarts, hround]
    refine h.filled fun a => ?_
    have ha := hfill a
    rw [hnone a] at ha
    simpa using ha.symm

/-- Every move keeps the starts recorded. -/
theorem step (h : Heralded sys) (hinv : Invariant sys) (hs : System.Step sys sys') :
    Heralded sys' := by
  obtain ⟨eligible, m, hm⟩ := hs
  cases hinv.roundMove hm with
  | begins t hinside hover hbegun hnone hfill =>
    have hschedule : sys'.state.journal.schedule = sys.state.journal.schedule :=
      congrArg Schedule.mk hbegun.events
    refine ⟨fun a _ => ?_, fun hnone' => by simpa [hfill] using hnone' (.unit t)⟩
    rw [startedRounds, hschedule, hbegun.round]
    exact h.filled hnone
  | @fills t index plan k o ho hbefore hfilling hfill =>
    have hstarted := h.filling (.unit t) (by simp [hbefore])
    cases ho.stretch with
    | runOut | skipped | chosen =>
      refine ⟨fun a _ => hstarted, fun hnone => ?_⟩
      have hgoing := hnone (.unit t)
      rw [hfill, if_pos rfl] at hgoing
      cases hgoing
    | filled =>
      have hstarts : (sys.state.recordStart plan.order).startedRounds =
          List.range' 1 sys.state.round := by
        rw [State.startedRounds_eq (events_recordStart plan.order), hstarted]
        obtain ⟨n, hn⟩ := Nat.exists_eq_succ_of_ne_zero hfilling.round
        simp [Event.roundStart?, hn, List.range'_concat, Nat.add_comm]
      exact ⟨fun a ha => by simp [System.none_of_filled hfill a] at ha, fun _ => hstarts⟩
  | @aside _ new haside hfill =>
    have hnone : new.filterMap Event.roundStart? = [] :=
      List.filterMap_eq_nil_iff.mpr fun e he => (haside.current e he).2
    refine h.keep haside.settled.round ?_ fun a => by rw [hfill]
    rw [State.startedRounds_eq haside.events, hnone]
    simp

end Heralded

/-! ### Schedules of reachable systems -/

/-- What was recorded is well formed and complete. -/
structure Documented (sys : System) : Prop where
  annals : Annals sys.state
  registered : Registered sys.state
  heralded : Heralded sys

namespace Documented

variable {c : Config} {sys : System}

/-- What every reachable system recorded is documented. -/
theorem of_reachable (h : System.Reachable c sys) : Documented sys := by
  induction h using System.Reachable.induction with
  | initial sys hstart =>
    obtain ⟨rounds, -, rfl⟩ := Invariant.exists_rounds_of_initial hstart
    exact ⟨⟨nofun, .nil, .nil, nofun⟩, nofun, ⟨nofun, fun _ => rfl⟩⟩
  | step sys sys' hreach hs ih =>
    have hrecorded := Recorded.of_reachable hreach
    have hinv := hrecorded.invariant
    have hqueued : ∀ t l, sys.state.linkOf? t = some l → sys.state.hasTerminated t = false := by
      intro t l hlink
      obtain ⟨-, r, hr, -, hterminated, -⟩ := hinv.record_of_linked hlink
      simp [hasTerminated, hr, hterminated]
    refine ⟨?_, ?_, ih.heralded.step hinv hs⟩
    all_goals rcases hinv.effect hs with ⟨w, hchange⟩ | harrival
    · exact hchange.annals hinv.sound hrecorded.chronicle ih.registered hqueued
        (hrecorded.announced.recorded_of_round_ne hinv hs) ih.annals
    · exact harrival.annals ih.annals
    · exact hchange.registered hinv.sound ih.registered
    · exact harrival.registered hinv.sound ih.registered

/-- No round has two recorded starts. -/
lemma start_unique (h : Documented sys) {k : Nat} {ps ps' : List ThreadId}
    {order order' : List Slot} (hps : .roundStarted k ps order ∈ sys.state.events)
    (hps' : .roundStarted k ps' order' ∈ sys.state.events) : ps' = ps := by
  have hnodup : sys.state.startedRounds.Nodup := by
    by_cases hnone : ∀ a, sys.fill? a = none
    · rw [h.heralded.filled hnone]
      exact List.nodup_range'
    · obtain ⟨a, ha⟩ := not_forall.mp hnone
      rw [h.heralded.filling a (Option.isSome_iff_ne_none.mpr ha)]
      exact List.nodup_range'
  have heq := List.inj_on_of_nodup_map hnodup (Schedule.mem_roundStarts.mpr hps')
    (Schedule.mem_roundStarts.mpr hps) rfl
  exact (Prod.mk.inj (Prod.mk.inj heq).2).1

/-- Whoever takes part in an event is a primary of its round. -/
lemma exists_primaries (h : Documented sys) {e : Event} (he : e ∈ sys.state.events) {t : ThreadId}
    (ht : e.actor? = some t) : ∃ ps, sys.roundPrimaries? e.round = some ps ∧ t ∈ ps := by
  rcases h.annals.acted e he t ht with ⟨hround, hmem⟩ | ⟨hround, ps, order, hps, hmem⟩
  · exact ⟨sys.state.primaries, if_pos hround, hmem⟩
  · exact ⟨ps, System.roundPrimaries?_eq hround ⟨order, hps⟩ fun ps' order' hps' =>
      h.start_unique hps hps', hmem⟩

/-- Whoever retired is a primary of no later round. -/
lemma not_mem_later (h : Documented sys) (hreach : System.Reachable c sys) {j k : Nat}
    {t : ThreadId} {ps : List ThreadId} (ht : .terminated j t ∈ sys.state.events) (hjk : j < k)
    (hps : sys.roundPrimaries? k = some ps) : t ∉ ps := by
  have hrecorded := Recorded.of_reachable hreach
  by_cases hk : k = sys.state.round
  · rw [System.roundPrimaries?, if_pos hk] at hps
    cases hps
    exact h.annals.not_mem_primaries hrecorded.invariant.sound hrecorded.chronicle h.registered ht
      (hk ▸ hjk)
  · rw [System.roundPrimaries?, if_neg hk] at hps
    obtain ⟨⟨k', ps', order⟩, hfind, rfl⟩ := Option.map_eq_some_iff.mp hps
    obtain rfl : k' = k := by simpa using List.find?_some hfind
    have hstart : .roundStarted k' ps' order ∈ sys.state.events :=
      Schedule.mem_roundStarts.mp (List.mem_of_find?_eq_some hfind)
    obtain ⟨earlier, later, hevents⟩ := List.append_of_mem ht
    have hrounds := hreach.pairwise_events
    have horder := h.annals.order
    rw [hevents] at hrounds horder
    rcases List.mem_append.mp (hevents ▸ hstart) with hpast | hpast
    · -- The start of a later round does not stand before the retirement.
      have hle := (List.pairwise_append.mp hrounds).2.2 _ hpast _ List.mem_cons_self
      exact absurd hjk (Nat.not_lt.mpr hle)
    · have hfuture := List.mem_of_ne_of_mem (by simp) hpast
      have hafter := (List.pairwise_cons.mp (List.pairwise_append.mp horder).2.1).1 _ hfuture
      exact (hafter t rfl).2 k' ps' order rfl hjk

end Documented

/-- Every recorded schedule is well formed. The rounds of its events do not decrease and are at
least one. The starts of rounds carry the numbers 1, 2, 3 and so on, each of them once, up to the
current round, which is missing as long as somebody fills it. Who takes a turn, acquires a lock or
retires in a round is a primary of it; a lock that is granted without waiting is granted right after
the turn that asked for it. Nobody retires twice, and whoever has retired takes no turn, gets no
lock, and is a primary of no later round. -/
theorem schedule_well_formed {c : Config} {sys : System} {tr : Schedule}
    (h : System.Reachable c sys) (hrecords : sys.schedule? = some tr) :
    (tr.events.Pairwise fun e e' => e.round ≤ e'.round) ∧
    (∀ e ∈ tr.events, 1 ≤ e.round) ∧
    ((∀ a, sys.fill? a = none) →
      tr.roundStarts.map Prod.fst = List.range' 1 sys.state.round) ∧
    (∀ a, (sys.fill? a).isSome →
      tr.roundStarts.map Prod.fst = List.range' 1 (sys.state.round - 1)) ∧
    (∀ e ∈ tr.events, ∀ t, e.actor? = some t →
      ∃ ps, sys.roundPrimaries? e.round = some ps ∧ t ∈ ps) ∧
    (∀ earlier later k l t, tr.events = earlier ++ .lockAcquired k l t false :: later →
      ∃ before slot, earlier = before ++ [.turn k t slot]) ∧
    tr.terminations.Nodup ∧
    ∀ earlier later k t, tr.events = earlier ++ .terminated k t :: later →
      (∀ e ∈ later, e.actor? ≠ some t) ∧
      ∀ k' ps, k < k' → sys.roundPrimaries? k' = some ps → t ∉ ps := by
  obtain rfl : sys.state.journal.schedule = tr := by
    simpa [System.schedule?] using (Option.ite_none_right_eq_some.mp hrecords).2
  have hdocumented := Documented.of_reachable h
  have hannals := hdocumented.annals
  refine ⟨h.pairwise_events, hannals.begun, hdocumented.heralded.filled,
    hdocumented.heralded.filling, fun e he t ht => hdocumented.exists_primaries he ht,
    hannals.prompt, ?_,
    fun earlier later k t hevents => ⟨fun e he hactor => ?_, fun k' ps hk hps => ?_⟩⟩
  · refine List.Pairwise.filterMap Event.termination? (fun e e' hdistinct t ht t' ht' heq => ?_)
      hannals.distinct
    exact hdistinct t ht (heq ▸ ht')
  · have hevents : sys.state.events = earlier ++ .terminated k t :: later := hevents
    have horder := (List.pairwise_append.mp (hevents ▸ hannals.order)).2.1
    exact ((List.pairwise_cons.mp horder).1 e he t rfl).1 hactor
  · have hevents : sys.state.events = earlier ++ .terminated k t :: later := hevents
    have hmem : .terminated k t ∈ sys.state.events := by simp [hevents]
    exact hdocumented.not_mem_later h hmem hk hps

/-! ### A hand-over and a retirement -/

/-- A recording scheduler for rounds of two primaries with one step each. -/
def twoPrimariesConfig : Config := { primaries := 2, recordSchedule := true }

/-- The moves by which the first of three threads acquires a lock, for which the second one waits,
then releases the lock and retires; the second one goes on, and the next round begins with the
third one. -/
def handOverThenRetire : List Move :=
  [.call (.client 0) (.submit .noop), .advance, .advance,
    .call (.client 0) (.submit .noop), .advance, .advance,
    .call (.client 0) (.submit .noop), .advance, .advance, .newLock,
    .call (.unit ⟨0⟩) (.lock ⟨0⟩), .advance, .advance, .advance, .advance, .advance,
    .call (.unit ⟨1⟩) (.lock ⟨0⟩), .advance, .advance, .advance, .advance,
    .call (.unit ⟨0⟩) (.unlock ⟨0⟩),
    .call (.unit ⟨0⟩) .retire, .advance, .advance, .advance,
    .enter (.unit ⟨1⟩), .advance,
    .call (.unit ⟨1⟩) .turn, .advance, .advance, .advance, .advance, .advance, .advance]

/-- The thread that retired is heard of once, and the next round has none but the others. -/
theorem schedule_well_formed_handOverThenRetire :
    ∃ sys tr, System.run? twoPrimariesConfig (fun _ => true) handOverThenRetire = some sys ∧
      sys.schedule? = some tr ∧
      tr.events = [.roundStarted 1 [⟨0⟩, ⟨1⟩] [0, 1], .turn 1 ⟨0⟩ 0,
        .lockAcquired 1 ⟨0⟩ ⟨0⟩ false, .turn 1 ⟨1⟩ 1, .lockAcquired 1 ⟨0⟩ ⟨1⟩ true,
        .terminated 1 ⟨0⟩, .roundStarted 2 [⟨1⟩, ⟨2⟩] [0, 1]] ∧
      tr.terminations.Nodup ∧ ∀ ps, sys.roundPrimaries? 2 = some ps → ⟨0⟩ ∉ ps := by
  obtain ⟨sys, tr, hrun, hrecords, hevents⟩ : ∃ sys tr,
      System.run? twoPrimariesConfig (fun _ => true) handOverThenRetire = some sys ∧
      sys.schedule? = some tr ∧
      tr.events = [.roundStarted 1 [⟨0⟩, ⟨1⟩] [0, 1], .turn 1 ⟨0⟩ 0,
        .lockAcquired 1 ⟨0⟩ ⟨0⟩ false, .turn 1 ⟨1⟩ 1, .lockAcquired 1 ⟨0⟩ ⟨1⟩ true] ++
        .terminated 1 ⟨0⟩ :: [.roundStarted 2 [⟨1⟩, ⟨2⟩] [0, 1]] := ⟨_, _, rfl, rfl, rfl⟩
  obtain ⟨-, -, -, -, -, -, hnodup, hretired⟩ :=
    schedule_well_formed (System.reachable_of_run? hrun) hrecords
  exact ⟨sys, tr, hrun, hrecords, hevents, hnodup,
    fun ps => (hretired _ _ 1 ⟨0⟩ hevents).2 2 ps (by decide)⟩

end RoundScheduler
