import RoundScheduler.Proofs.Effects
import RoundScheduler.Proofs.State.Events

/-!
# Stretches and rounds

One stretch begins a round, some more fill it, and all others happen beside that: they leave the
number of the round, its primaries and whoever fills it alone, and record nothing but what happened
in that round. This file lists the three kinds, so that what is said of rounds is shown for each
kind and not for each stretch.
-/

namespace RoundScheduler

open State

/-! ### The thread that fills the round -/

/-- The index and the plan of a place at which a round is filled. -/
def Phase.fill? : Phase → Option (Nat × RoundConfig)
  | fill index plan _ => some (index, plan)
  | _ => none

/-- Whoever is done with a fill does not go on with another one. -/
lemma AfterFill.fill?_phase (k : AfterFill) : k.phase.fill? = none := by
  cases k <;> rfl

namespace System

/-- The place of an agent, if it is one of a thread. -/
def phase? (sys : System) (a : Agent) : Option Phase :=
  (sys.calls.get? a).bind fun call => call.point.phase?

/-- The index and the plan with which an agent fills a round, if it does. -/
def fill? (sys : System) (a : Agent) : Option (Nat × RoundConfig) :=
  (sys.phase? a).bind Phase.fill?

end System

/-- A move changes the phase of the agent that makes it only. -/
lemma System.phase?_apply {sys : System} {a : Agent} {op : Operation} {o : Outcome}
    {call? : Option Call} (hcall : sys.calls.get? a = call?) (b : Agent) :
    (sys.apply a op o).phase? b =
      if b = a then (o.call? call? op).bind fun call => call.point.phase? else sys.phase? b := by
  rw [System.phase?, System.get?_calls_apply, hcall]
  split <;> rfl

/-- A move changes the fill of the agent that makes it only. -/
lemma System.fill?_apply {sys : System} {a : Agent} {op : Operation} {o : Outcome}
    {call? : Option Call} (hcall : sys.calls.get? a = call?) (b : Agent) :
    (sys.apply a op o).fill? b =
      if b = a then ((o.call? call? op).bind fun call => call.point.phase?).bind Phase.fill?
      else sys.fill? b := by
  rw [System.fill?, System.phase?_apply hcall]
  split <;> rfl

/-- The index and the plan with which a thread fills a round after an outcome, if it does, given the
place where it stood. -/
def Outcome.fill? (before : Phase) : Outcome → Option (Nat × RoundConfig)
  | sleep => before.fill?
  | goto _ p | pause _ p => p.phase?.bind Phase.fill?
  | reply .. => none

namespace System

variable {sys : System} {t : ThreadId} {op : Operation} {ph : Phase} {o : Outcome}

/-- What a thread fills is told by its phase. -/
lemma fill?_of_call (hcall : sys.calls.get? (.unit t) = some ⟨op, .thread t ph⟩) :
    sys.fill? (.unit t) = ph.fill? := by
  rw [fill?, phase?, hcall]
  rfl

/-- The thread that made a stretch fills a round as the outcome says. -/
lemma fill?_apply_self (hcall : sys.calls.get? (.unit t) = some ⟨op, .thread t ph⟩) :
    (sys.apply (.unit t) op o).fill? (.unit t) = o.fill? ph := by
  rw [fill?_apply hcall, if_pos rfl]
  cases o <;> rfl

/-- Whoever else fills a round goes on with it where it was. -/
lemma fill?_apply_of_ne {a b : Agent} (hba : b ≠ a) :
    (sys.apply a op o).fill? b = sys.fill? b := by
  rw [fill?_apply rfl, if_neg hba]

end System

/-! ### Kinds of changes -/

/-- A change that neither begins a round nor chooses a primary. -/
structure State.Settled (s s' : State) : Prop where
  round : s'.round = s.round
  primaries : s'.primaries = s.primaries
  live : s'.live.primaries = s.live.primaries
  threadList : s.threadList <+: s'.threadList

namespace State

variable {s s' : State} {t : ThreadId}

/-- No change is a settled one. -/
lemma Settled.refl (s : State) : Settled s s := ⟨rfl, rfl, rfl, List.prefix_rfl⟩

/-- Two settled changes make one. -/
lemma Settled.trans {s'' : State} (h : Settled s s') (h' : Settled s' s'') : Settled s s'' where
  round := h'.round.trans h.round
  primaries := h'.primaries.trans h.primaries
  live := h'.live.trans h.live
  threadList := h.threadList.trans h'.threadList

/-- A turn is no matter of the rounds. -/
lemma settled_afterTurn (slot : Slot) : Settled s (s.afterTurn t slot) := by
  rw [afterTurn_eq]
  exact ⟨rfl, rfl, rfl, List.prefix_rfl⟩

/-- A retirement is no matter of the rounds. -/
lemma settled_afterRetirement (slot : Slot) : Settled s (s.afterRetirement t slot) := by
  rw [afterRetirement_eq]
  exact ⟨rfl, rfl, rfl, List.prefix_rfl⟩

/-- A dropped lock is no matter of the rounds. -/
lemma settled_dropLock {l : LockId} (hl : (s.lock? l).isSome) : Settled s (s.dropLock l) := by
  rw [dropLock_eq hl]
  exact ⟨rfl, rfl, rfl, List.prefix_rfl⟩

/-- An arrival adds to the list at most. -/
lemma Arrival.settled (ha : Arrival s s') : Settled s s' := by
  cases ha with
  | enrol => exact ⟨rfl, rfl, rfl, List.prefix_rfl⟩
  | block => exact ⟨rfl, rfl, rfl, List.prefix_rfl⟩
  | list t w => exact ⟨rfl, rfl, rfl, List.prefix_append _ _⟩

end State

/-- The start of a round: it has the staged configuration, no primaries, and no event yet. -/
structure State.Begun (s s' : State) : Prop where
  round : s'.round = s.round + 1
  primaries : s'.primaries = []
  live : s'.live = s.staged
  staged : s'.staged = s.staged
  events : s'.events = s.events

/-- A change that neither begins nor fills a round. It records events of the current round only, and
stages a configuration only if it records the request for it. -/
structure State.Aside (s s' : State) (new : List Event) : Prop where
  settled : Settled s s'
  events : s'.events = s.events ++ new
  current : ∀ e ∈ new, e.round = s.round ∧ e.roundStart? = none
  staged : s'.staged = s.staged ∧ (∀ e ∈ new, e.isReconfiguration = false) ∨
    ∃ t slot n steps, RoundConfig.roundRobin n steps = .ok s'.staged ∧
      new = [.turn s.round t slot, .reconfigured s.round n steps]

namespace State

variable {s s' : State} {t : ThreadId}

/-- The beginning of a round begins one. -/
lemma begun_beginRound : Begun s s.beginRound :=
  ⟨round_beginRound, primaries_beginRound, live_beginRound, staged_beginRound, events_beginRound⟩

/-- The end of a round with the beginning of the next one begins one. -/
lemma begun_nextRound : Begun s s.nextRound :=
  ⟨round_nextRound, primaries_nextRound, live_nextRound, staged_beginRound (s := s.closeRound),
    events_nextRound⟩

/-- Whoever begins a round starts at the head of the list. -/
lemma Begun.filling (h : Begun s s') : s'.Filling 0 s.staged where
  round := by simp [h.round]
  primaries := by rw [h.live]
  index_le := Nat.zero_le _
  seen := by simp [h.primaries]

/-- A change that stages nothing, and records nothing but turns, grants and retirements. -/
lemma Settled.aside (h : Settled s s') (hstaged : s'.staged = s.staged) {new : List Event}
    (hevents : s'.events = s.events ++ new)
    (hnew : ∀ e ∈ new, e.round = s.round ∧ e.roundStart? = none ∧ e.isReconfiguration = false) :
    Aside s s' new where
  settled := h
  events := hevents
  current e he := ⟨(hnew e he).1, (hnew e he).2.1⟩
  staged := .inl ⟨hstaged, fun e he => (hnew e he).2.2⟩

/-- A change that stages and records nothing. -/
lemma Settled.aside_of_silent (h : Settled s s') (hstaged : s'.staged = s.staged)
    (hevents : s'.events = s.events) : Aside s s' [] :=
  h.aside hstaged (hevents.trans (List.append_nil _).symm) nofun

/-- An arrival is aside of the rounds and records nothing. -/
lemma Arrival.aside (ha : Arrival s s') : Aside s s' [] :=
  ha.settled.aside_of_silent ha.staged_eq ha.events_eq

end State

/-! ### Kinds of stretches -/

/-- What a stretch is to the rounds. -/
inductive RoundPart (eligible : ThreadId → Bool) (s : State) (t : ThreadId) :
    Phase → Outcome → Prop
  /-- It begins the first round, or the next one because the last one is over. -/
  | begins {ph : Phase} {s' : State} (k : AfterFill) (hph : ph.fill? = none)
    (hover : s.round = 0 ∨
      s.live.primaries ≤ s.primaries.length ∧ ∀ u ∈ s.primaries, s.canProgress u = false)
    (hbegun : Begun s s') : RoundPart eligible s t ph (.goto s' (.thread t (.fill 0 s.staged k)))
  /-- It is part of a fill. -/
  | fills {o : Outcome} (index : Nat) (plan : RoundConfig) (k : AfterFill)
    (ho : Stretch eligible s t (.fill index plan k) o) :
    RoundPart eligible s t (.fill index plan k) o
  /-- It is neither. -/
  | aside {ph : Phase} {o : Outcome} {new : List Event} (hph : ph.fill? = none)
    (hafter : o.fill? ph = none) (haside : Aside s (o.state s) new) : RoundPart eligible s t ph o

/-- Every stretch is of one of these kinds. -/
lemma Stretch.roundPart {eligible : ThreadId → Bool} {s : State} {t : ThreadId} {ph : Phase}
    {o : Outcome} (ho : Stretch eligible s t ph o) : RoundPart eligible s t ph o := by
  have hturn : ∀ slot, Aside s (s.afterTurn t slot) [.turn s.round t slot] := fun slot =>
    (settled_afterTurn slot).aside (staged_afterTurn slot) (events_afterTurn slot)
      (by simp [Event.round, Event.roundStart?, Event.isReconfiguration])
  cases ho with
  | bootstrap p hround | bootstrapRetirement hround =>
    exact .begins _ rfl (.inl hround) begun_beginRound
  | closed k hfull hstuck => exact .begins _ rfl (.inr ⟨hfull, hstuck⟩) begun_nextRound
  | runOut index plan k hlen hindex => exact .fills _ _ _ (.runOut index plan k hlen hindex)
  | skipped index plan k u r hlen hu hr hskip =>
    exact .fills _ _ _ (.skipped index plan k u r hlen hu hr hskip)
  | chosen index plan k u r hlen hu hr hterminated heligible =>
    exact .fills _ _ _ (.chosen index plan k u r hlen hu hr hterminated heligible)
  | filled index plan k hlen => exact .fills _ _ _ (.filled index plan k hlen)
  | turn slot | refused r slot | overflowed r slot => exact .aside rfl rfl (hturn slot)
  | queued l k slot =>
    obtain ⟨hsettled, hevents, hcurrent, hstaged⟩ := hturn slot
    exact .aside rfl rfl
      ⟨hsettled.trans ⟨rfl, rfl, rfl, List.prefix_rfl⟩, hevents, hcurrent, hstaged⟩
  | granted l k slot =>
    have hsettled : Settled s ((s.afterTurn t slot).grant l t) :=
      (settled_afterTurn slot).trans ⟨rfl, rfl, rfl, List.prefix_rfl⟩
    refine .aside rfl rfl (hsettled.aside (staged_afterTurn slot) (events_granted slot) ?_)
    simp [Event.round, Event.roundStart?, Event.isReconfiguration]
  | staged r slot rounds hslot hhead hrounds =>
    refine .aside rfl rfl ⟨(settled_afterTurn slot).trans ⟨rfl, rfl, rfl, List.prefix_rfl⟩,
      events_staged slot _ _ rounds, ?_, .inr ⟨t, slot, _, _, hrounds, rfl⟩⟩
    simp [Event.round, Event.roundStart?]
  | retired slot =>
    refine .aside rfl rfl ((settled_afterRetirement slot).aside (staged_afterRetirement slot)
      (events_afterRetirement slot) ?_)
    simp [Event.round, Event.roundStart?, Event.isReconfiguration]
  | finished | notNext =>
    exact .aside rfl rfl (Settled.aside_of_silent ⟨rfl, rfl, rfl, List.prefix_rfl⟩ rfl rfl)
  | stillOpen k ph' hk =>
    exact .aside rfl (by cases k <;> cases hk <;> rfl) ((Settled.refl s).aside_of_silent rfl rfl)
  | _ => exact .aside rfl rfl ((Settled.refl s).aside_of_silent rfl rfl)

/-- No operation begins or fills a round when it is called. -/
lemma Opening.aside {s : State} {a : Agent} {op : Operation} {o : Outcome}
    (ho : Opening s a op o) : (∃ new, Aside s (o.state s) new) ∧
      ((o.call? none op).bind fun call => call.point.phase?).bind Phase.fill? = none := by
  cases ho with
  | handedOver t l k next =>
    have hsettled : Settled s (s.handOver l next) := ⟨rfl, rfl, rfl, List.prefix_rfl⟩
    refine ⟨⟨_, hsettled.aside rfl events_handOver ?_⟩, rfl⟩
    simp [Event.round, Event.roundStart?, Event.isReconfiguration]
  | unlinked | forgotten | released =>
    exact ⟨⟨[], Settled.aside_of_silent ⟨rfl, rfl, rfl, List.prefix_rfl⟩ rfl rfl⟩, rfl⟩
  | _ => exact ⟨⟨[], (Settled.refl s).aside_of_silent rfl rfl⟩, rfl⟩

end RoundScheduler
