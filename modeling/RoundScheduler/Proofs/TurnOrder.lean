import RoundScheduler.Proofs.Invariant
import RoundScheduler.Proofs.PassOrder
import RoundScheduler.Proofs.State.Chronicle

/-!
# The total order decides the turns

The turns of a round and the steps that are left of it form the passes with which the round started,
except for the steps that retired threads gave up. This file defines what the recorded schedule says
of a round, carries the relation through every change, and concludes it for every round that was
begun in a run.
-/

namespace RoundScheduler

open State

/-! ### What a schedule says of a round -/

namespace Schedule

/-- The slots of the turns of a round, in order. -/
def turnSlots (s : Schedule) (k : Nat) : List Slot :=
  (s.turns.filter fun turn => turn.1 = k).map fun turn => turn.2.2

/-- The number of turns that a thread took in a round. -/
def turnCount (s : Schedule) (k : Nat) (t : ThreadId) : Nat :=
  s.turns.countP fun turn => turn.1 = k && turn.2.1 = t

/-- The part of the schedule before a thread retired in a round. -/
def beforeRetirement (s : Schedule) (k : Nat) (t : ThreadId) : Schedule :=
  ⟨s.events.takeWhile (· ≠ .terminated k t)⟩

/-- The number of passes of a round in which a slot takes part: if the thread at the slot retired in
the round, as many as it had taken turns before. -/
def passLimit (s : Schedule) (k : Nat) (primaries : List ThreadId) (slot : Slot) : Option Nat :=
  primaries[slot]?.bind fun t =>
    if .terminated k t ∈ s.events then some ((s.beforeRetirement k t).turnCount k t) else none

variable {k : Nat} {t : ThreadId} {es new : List Event} {ps : List ThreadId} {slot : Slot}

lemma turns_append (es new : List Event) :
    turns ⟨es ++ new⟩ = turns ⟨es⟩ ++ turns ⟨new⟩ :=
  List.filterMap_append

lemma turnSlots_append (es new : List Event) (k : Nat) :
    turnSlots ⟨es ++ new⟩ k = turnSlots ⟨es⟩ k ++ turnSlots ⟨new⟩ k := by
  rw [turnSlots, turns_append, List.filter_append, List.map_append]
  rfl

lemma mem_turns : (k, t, slot) ∈ turns ⟨es⟩ ↔ .turn k t slot ∈ es := by
  rw [turns, List.mem_filterMap]
  constructor
  · rintro ⟨e, he, hturn⟩
    cases e <;> cases hturn
    exact he
  · exact fun he => ⟨_, he, rfl⟩

lemma mem_roundStarts {order : List Slot} :
    (k, ps, order) ∈ roundStarts ⟨es⟩ ↔ .roundStarted k ps order ∈ es := by
  rw [roundStarts, List.mem_filterMap]
  constructor
  · rintro ⟨e, he, hstart⟩
    cases e <;> cases hstart
    exact he
  · exact fun he => ⟨_, he, rfl⟩

/-- Events of other rounds, and events that are no turns, do not count as turns of a round. -/
lemma turnSlots_eq_nil (h : ∀ t slot, .turn k t slot ∉ es) : turnSlots ⟨es⟩ k = [] := by
  rw [turnSlots, List.map_eq_nil_iff, List.filter_eq_nil_iff]
  rintro ⟨k', t, slot⟩ hmem hk
  obtain rfl : k' = k := by simpa using hk
  exact h t slot (mem_turns.mp hmem)

lemma takeWhile_append_of_mem {e : Event} (he : e ∈ es) :
    (es ++ new).takeWhile (· ≠ e) = es.takeWhile (· ≠ e) := by
  induction es with
  | nil => cases he
  | cons e' es ih =>
    by_cases hee : e' = e
    · simp [hee]
    · have hmem : e ∈ es := (List.mem_cons.mp he).resolve_left (Ne.symm hee)
      have hrest := ih hmem
      simp only [List.cons_append, List.takeWhile_cons, hee, ne_eq, not_false_eq_true, decide_true,
        if_true]
      exact congrArg (e' :: ·) hrest

lemma takeWhile_append_of_not_mem {e : Event} (he : e ∉ es) :
    (es ++ [e]).takeWhile (· ≠ e) = es := by
  have hall : ∀ e' ∈ es, decide (e' ≠ e) = true := fun e' he' => by
    simpa using fun heq : e' = e => he (heq ▸ he')
  rw [List.takeWhile_append_of_pos hall]
  simp

/-- Events after its retirement do not change the limit of a slot. -/
lemma passLimit_append (h : ∀ t, .terminated k t ∉ new) :
    passLimit ⟨es ++ new⟩ k ps slot = passLimit ⟨es⟩ k ps slot := by
  rw [passLimit, passLimit]
  congr 1
  funext t
  by_cases ht : .terminated k t ∈ es
  · simp only [List.mem_append, ht, true_or, if_true, beforeRetirement, takeWhile_append_of_mem ht]
  · simp only [List.mem_append, ht, h t, or_self, if_false]

/-- A primary that retires limits its slot to the passes in which it took turns. -/
lemma passLimit_retire (hnodup : ps.Nodup) (hslot : ps[slot]? = some t)
    (hnew : .terminated k t ∉ es) (u : Slot) :
    passLimit ⟨es ++ [.terminated k t]⟩ k ps u =
      if u = slot then some (turnCount ⟨es⟩ k t) else passLimit ⟨es⟩ k ps u := by
  split
  · next hu =>
    simp only [passLimit, hu, hslot, Option.bind_some, beforeRetirement, List.mem_append,
      List.mem_singleton, or_true, if_true, takeWhile_append_of_not_mem hnew]
  · next hu =>
    rw [passLimit, passLimit]
    cases hps : ps[u]? with
    | none => rfl
    | some t' =>
      -- Another slot belongs to another thread, whose retirement is not the new one.
      have hne : t' ≠ t := by
        rintro rfl
        exact hu ((List.getElem?_inj (List.getElem?_eq_some_iff.mp hps).1 hnodup).mp
          (hps.trans hslot.symm))
      have hother : Event.terminated k t' ≠ .terminated k t := fun he => hne (by cases he; rfl)
      by_cases hmem : .terminated k t' ∈ es
      · simp only [Option.bind_some, List.mem_append, hmem, true_or, if_true, beforeRetirement,
          takeWhile_append_of_mem hmem]
      · simp only [Option.bind_some, List.mem_append, hmem, List.mem_singleton, hother, or_self,
          if_false]

/-- If the turns of a thread in a round are those of its slot, they are as many. -/
lemma count_turnSlots (h : ∀ u slot', .turn k u slot' ∈ es → (slot' = slot ↔ u = t)) :
    (turnSlots ⟨es⟩ k).count slot = turnCount ⟨es⟩ k t := by
  rw [turnSlots, turnCount, List.count, List.countP_map, List.countP_filter]
  refine List.countP_congr fun turn hturn => ?_
  obtain ⟨k', u, slot'⟩ := turn
  by_cases hk : k' = k
  · subst hk
    have hiff := h u slot' (mem_turns.mp hturn)
    simpa using hiff
  · simp [hk]

/-- If the turns of a round begin its passes, nobody took more turns than there are passes. -/
lemma turnCount_le {n steps : Nat} {limit : Slot → Option Nat} (hnodup : ps.Nodup)
    (hnamed : ∀ u slot, .turn k u slot ∈ es → ps[slot]? = some u)
    (horder : turnSlots ⟨es⟩ k <+: keptPasses n steps limit) (t : ThreadId) :
    turnCount ⟨es⟩ k t ≤ steps := by
  by_cases ht : t ∈ ps
  · obtain ⟨slot, hslot⟩ := List.mem_iff_getElem?.mp ht
    have hcount : (turnSlots ⟨es⟩ k).count slot = turnCount ⟨es⟩ k t := by
      refine count_turnSlots fun u slot' hu => ⟨?_, ?_⟩
      · rintro rfl
        exact Option.some_inj.mp ((hnamed u slot' hu).symm.trans hslot)
      · rintro rfl
        have hget := hnamed u slot' hu
        exact (List.getElem?_inj (List.getElem?_eq_some_iff.mp hget).1 hnodup).mp
          (hget.trans hslot.symm)
    rw [← hcount]
    exact Nat.le_trans (horder.sublist.count_le slot) (count_keptPasses_le n steps limit slot)
  · -- Who is no primary took no turn at all.
    have hzero : turnCount ⟨es⟩ k t = 0 := by
      rw [turnCount, List.countP_eq_zero]
      rintro ⟨k', u, slot⟩ hturn hku
      obtain ⟨rfl, rfl⟩ : k' = k ∧ u = t := by simpa using hku
      exact ht (List.mem_of_getElem? (hnamed u slot (mem_turns.mp hturn)))
    omega

end Schedule

/-! ### The current round and earlier ones -/

namespace State

variable {s s' : State} {k n steps : Nat} {t : ThreadId} {slot : Slot} {new : List Event}

/-- The current round, begun with passes over `n` slots: the turns taken and the steps left are what
its primaries did not give up. -/
structure RoundOpen (s : State) (k n steps : Nat) : Prop where
  round : s.round = k
  primaries : s.live.primaries = n
  order : s.journal.schedule.turnSlots k ++ s.live.order =
    keptPasses n steps (s.journal.schedule.passLimit k s.primaries)

/-- A round that is over, begun with passes over `n` slots: the turns taken begin what the primaries
that its start names did not give up. -/
structure RoundClosed (s : State) (k n steps : Nat) (ps : List ThreadId) : Prop where
  round : k < s.round
  recorded : ∃ order, .roundStarted k ps order ∈ s.events
  unique : ∀ ps' order, .roundStarted k ps' order ∈ s.events → ps' = ps
  nodup : ps.Nodup
  named : ∀ t slot, .turn k t slot ∈ s.events → ps[slot]? = some t
  order : s.journal.schedule.turnSlots k <+:
    keptPasses n steps (s.journal.schedule.passLimit k ps)

lemma schedule_eq (h : s'.events = s.events ++ new) :
    s'.journal.schedule = ⟨s.journal.schedule.events ++ new⟩ := by
  have heq : s'.journal.schedule = ⟨s'.events⟩ := rfl
  rw [heq, h]
  rfl

/-- Nothing that happens later concerns a round that is over. -/
lemma RoundClosed.extend {ps : List ThreadId} (h : RoundClosed s k n steps ps)
    (hround : s.round ≤ s'.round) (hevents : s'.events = s.events ++ new)
    (hnew : ∀ e ∈ new, e.round = s.round) : RoundClosed s' k n steps ps := by
  have hother : ∀ e ∈ new, e.round ≠ k := fun e he heq =>
    Nat.lt_irrefl k ((heq.symm.trans (hnew e he)) ▸ h.round)
  have hold : ∀ e, e.round = k → e ∈ s'.events → e ∈ s.events := fun e hk he =>
    (List.mem_append.mp (hevents ▸ he)).resolve_right fun he => hother e he hk
  have hslots : s'.journal.schedule.turnSlots k = s.journal.schedule.turnSlots k := by
    rw [schedule_eq hevents, Schedule.turnSlots_append,
      Schedule.turnSlots_eq_nil fun t slot ht => hother _ ht rfl, List.append_nil]
  have hlimit : s'.journal.schedule.passLimit k ps = s.journal.schedule.passLimit k ps := by
    funext slot
    rw [schedule_eq hevents]
    exact Schedule.passLimit_append fun t ht => hother _ ht rfl
  constructor
  case round => exact Nat.lt_of_lt_of_le h.round hround
  case recorded =>
    obtain ⟨order, hmem⟩ := h.recorded
    exact ⟨order, hevents ▸ List.mem_append_left _ hmem⟩
  case unique => exact fun ps' order hps => h.unique ps' order (hold _ rfl hps)
  case nodup => exact h.nodup
  case named => exact fun t slot ht => h.named t slot (hold _ rfl ht)
  case order =>
    rw [hslots, hlimit]
    exact h.order

/-- The current round goes on when nobody takes a step and nobody retires. -/
lemma RoundOpen.keep (h : RoundOpen s k n steps) (new : List Event) (hround : s'.round = s.round)
    (hlive : s'.live = s.live) (hevents : s'.events = s.events ++ new)
    (hturns : ∀ t slot, .turn k t slot ∉ new) (hterminated : ∀ t, .terminated k t ∉ new)
    (hprimaries : ∀ slot, s.journal.schedule.passLimit k s'.primaries slot =
      s.journal.schedule.passLimit k s.primaries slot) : RoundOpen s' k n steps where
  round := hround.trans h.round
  primaries := hlive ▸ h.primaries
  order := by
    have hlimit : s'.journal.schedule.passLimit k s'.primaries =
        s.journal.schedule.passLimit k s.primaries := by
      funext slot
      rw [schedule_eq hevents, Schedule.passLimit_append hterminated]
      exact hprimaries slot
    rw [hlimit, hlive, schedule_eq hevents, Schedule.turnSlots_append,
      Schedule.turnSlots_eq_nil hturns, List.append_nil]
    exact h.order

/-- A step moves the head of the order to the turns. -/
lemma RoundOpen.takeTurn (h : RoundOpen s k n steps) (rest : List Event)
    (hhead : s.live.order.head? = some slot) (hround : s'.round = s.round)
    (hprimaries : s'.primaries = s.primaries) (hlive : s'.live = s.live.consume)
    (hevents : s'.events = s.events ++ .turn s.round t slot :: rest)
    (hrest : ∀ e ∈ rest, (∀ k u, e ≠ .terminated k u) ∧ ∀ k u slot, e ≠ .turn k u slot) :
    RoundOpen s' k n steps where
  round := hround.trans h.round
  primaries := hlive ▸ h.primaries
  order := by
    obtain rfl := h.round
    have hterminated : ∀ u, .terminated s.round u ∉ Event.turn s.round t slot :: rest := by
      intro u hu
      rcases List.mem_cons.mp hu with hu | hu
      · cases hu
      · exact (hrest _ hu).1 _ u rfl
    have hlimit : s'.journal.schedule.passLimit s.round s'.primaries =
        s.journal.schedule.passLimit s.round s.primaries := by
      funext slot'
      rw [schedule_eq hevents, Schedule.passLimit_append hterminated, hprimaries]
    have hslots : s'.journal.schedule.turnSlots s.round =
        s.journal.schedule.turnSlots s.round ++ [slot] := by
      rw [schedule_eq hevents, List.append_cons, Schedule.turnSlots_append,
        Schedule.turnSlots_append,
        Schedule.turnSlots_eq_nil fun u slot' hu => (hrest _ hu).2 _ u slot' rfl, List.append_nil]
      simp [Schedule.turnSlots, Schedule.turns, Event.turn?]
    have horder : s.live.order = slot :: s.live.order.tail := by
      cases ho : s.live.order with
      | nil => simp [ho] at hhead
      | cons x xs => simpa [ho] using hhead
    rw [hlimit, hslots, hlive, RoundConfig.consume, List.append_assoc, List.singleton_append,
      ← horder]
    exact h.order

/-- A thread that retires gives up the steps of its slot that are left. -/
lemma RoundOpen.retire (h : RoundOpen s k n steps) (hchronicle : Chronicle s) (hs : Sound s)
    (hslot : s.primaries[slot]? = some t) (hround : s'.round = s.round)
    (hprimaries : s'.primaries = s.primaries) (hlive : s'.live = s.live.strip slot)
    (hevents : s'.events = s.events ++ [.terminated s.round t])
    (hnew : .terminated s.round t ∉ s.events) : RoundOpen s' k n steps where
  round := hround.trans h.round
  primaries := hlive ▸ h.primaries
  order := by
    obtain rfl := h.round
    have hlimit : s'.journal.schedule.passLimit s.round s'.primaries = fun u =>
        if u = slot then some (s.journal.schedule.turnCount s.round t)
        else s.journal.schedule.passLimit s.round s.primaries u := by
      funext u
      rw [schedule_eq hevents, hprimaries]
      exact Schedule.passLimit_retire hs.seating.nodup hslot hnew u
    have hslots : s'.journal.schedule.turnSlots s.round =
        s.journal.schedule.turnSlots s.round := by
      have hnil : Schedule.turnSlots ⟨[.terminated s.round t]⟩ s.round = [] :=
        Schedule.turnSlots_eq_nil (by simp)
      rw [schedule_eq hevents, Schedule.turnSlots_append, hnil, List.append_nil]
    -- The turns of the thread are those of its slot.
    have hcount : (s.journal.schedule.turnSlots s.round).count slot =
        s.journal.schedule.turnCount s.round t := by
      refine Schedule.count_turnSlots fun u slot' hu => ⟨?_, ?_⟩
      · rintro rfl
        exact Option.some_inj.mp ((hchronicle.named u slot' hu).symm.trans hslot)
      · rintro rfl
        exact hs.seating.slot_unique (hchronicle.named u slot' hu) hslot
    have hlt : slot < n := Nat.lt_of_lt_of_le (List.getElem?_eq_some_iff.mp hslot).1
      (h.primaries ▸ hs.seating.length_le)
    have hfree : s.journal.schedule.passLimit s.round s.primaries slot = none := by
      have hnew' : .terminated s.round t ∉ s.journal.schedule.events := hnew
      simpa [Schedule.passLimit, hslot] using hnew'
    rw [hlimit, hslots, hlive, RoundConfig.strip, keptPasses_limit hlt hfree, ← h.order, ← hcount,
      keepFirst_count_append]

/-- A thread that becomes a primary has given up nothing. -/
lemma RoundOpen.choose (h : RoundOpen s k n steps) (hchronicle : Chronicle s)
    (halive : s.isAlive t = true) : RoundOpen (s.choose t) k n steps := by
  obtain ⟨r, hr, -, hterminated⟩ := exists_record_of_isAlive halive
  have hnew : .terminated k t ∉ s.journal.schedule.events :=
    hchronicle.not_terminated (by simp [hasTerminated, hr, hterminated]) (by simp [hr]) k
  refine h.keep [] rfl rfl (List.append_nil _).symm (by simp) (by simp) fun slot => ?_
  have hprimaries : (s.choose t).primaries = s.primaries ++ [t] := rfl
  rw [Schedule.passLimit, Schedule.passLimit, hprimaries, List.getElem?_append]
  split
  · rfl
  · next hlt =>
    rw [List.getElem?_eq_none (Nat.le_of_not_lt hlt)]
    cases hslot : [t][slot - s.primaries.length]? with
    | none => rfl
    | some u =>
      obtain rfl : u = t := List.mem_singleton.mp (List.mem_of_getElem? hslot)
      simp [hnew]

/-- A round that closes is over, with the primaries that its start names. -/
lemma RoundOpen.close (h : RoundOpen s k n steps) (hchronicle : Chronicle s) (hs : Sound s)
    (hround : s'.round = s.round + 1) (hevents : s'.events = s.events)
    (hrecorded : ∃ order, .roundStarted s.round s.primaries order ∈ s.events) :
    RoundClosed s' k n steps s.primaries := by
  obtain rfl := h.round
  have hschedule : s'.journal.schedule = s.journal.schedule := congrArg Schedule.mk hevents
  constructor
  case round => exact hround ▸ Nat.lt_succ_self _
  case recorded => exact hevents ▸ hrecorded
  case unique => exact fun ps order hps => (hchronicle.started ps order (hevents ▸ hps)).1
  case nodup => exact hs.seating.nodup
  case named => exact fun t slot ht => hchronicle.named t slot (hevents ▸ ht)
  case order =>
    rw [hschedule, ← h.order]
    exact List.prefix_append _ _

/-- What is known of a round that was begun with passes over `n` slots. -/
def RoundHistory (s : State) (k n steps : Nat) : Prop :=
  RoundOpen s k n steps ∨ ∃ ps, RoundClosed s k n steps ps

/-- Every change keeps what is known of a round, provided that the start of a round that closes was
recorded. -/
theorem Change.roundHistory {w : Option ThreadId} (hc : Change s w s') (hs : Sound s)
    (hchronicle : Chronicle s) (hk : k ≠ 0)
    (hrecorded : s'.round ≠ s.round → s.round ≠ 0 →
      ∃ order, .roundStarted s.round s.primaries order ∈ s.events)
    (h : RoundHistory s k n steps) : RoundHistory s' k n steps := by
  obtain ⟨new, hevents, hnew⟩ := hc.exists_new
  rcases h with hopen | ⟨ps, hclosed⟩
  · have hround := hopen.round
    cases hc with
    | turn t slot hslot hhead =>
      exact .inl (hopen.takeTurn [] hhead (round_afterTurn slot) (primaries_afterTurn slot)
        (live_afterTurn slot) (events_afterTurn slot) nofun)
    | grant t slot l _ hslot hhead =>
      exact .inl (hopen.takeTurn (t := t) [.lockAcquired s.round l t false] hhead
        (round_afterTurn slot) (primaries_afterTurn slot) (live_afterTurn slot) (by simp) (by simp))
    | enqueue t slot l _ hslot hhead =>
      exact .inl (hopen.takeTurn [] hhead (round_afterTurn slot) (primaries_afterTurn slot)
        (live_afterTurn slot) (events_afterTurn slot) nofun)
    | stage t slot n' steps' c hslot hhead =>
      exact .inl (hopen.takeTurn (t := t) [.reconfigured s.round n' steps'] hhead
        (round_afterTurn slot) (primaries_afterTurn slot) (live_afterTurn slot) (by simp) (by simp))
    | retire t slot hslot hterminated =>
      obtain ⟨r, hr, -⟩ := hs.seating.primary_of_slot hslot
      exact .inl (hopen.retire hchronicle hs hslot (round_afterRetirement slot)
        (primaries_afterRetirement slot) (live_afterRetirement slot) (events_afterRetirement slot)
        (hchronicle.not_terminated hterminated (by simp [hr]) s.round))
    | bootstrap hbegin => exact absurd (hround.symm.trans hbegin) hk
    | next hbegun =>
      exact .inr ⟨s.primaries, hopen.close hchronicle hs round_nextRound events_nextRound
        (hrecorded (by simp) hbegun)⟩
    | choose t _ _ halive => exact .inl (hopen.choose hchronicle halive)
    | start order =>
      exact .inl (hopen.keep _ rfl rfl (events_recordStart order) (by simp) (by simp) fun _ => rfl)
    | handOver => exact .inl (hopen.keep _ rfl rfl events_handOver (by simp) (by simp) fun _ => rfl)
    | dropLock l hl =>
      have hsame := events_dropLock hl
      rw [dropLock_eq hl] at hsame ⊢
      exact .inl (hopen.keep [] rfl rfl (by simpa using hsame) nofun nofun fun _ => rfl)
    | _ => exact .inl (hopen.keep [] rfl rfl (List.append_nil _).symm nofun nofun fun _ => rfl)
  · refine .inr ⟨ps, hclosed.extend ?_ hevents hnew⟩
    rcases hc.round_eq with heq | ⟨heq, -⟩
    · exact Nat.le_of_eq heq.symm
    · exact heq ▸ Nat.le_succ _

/-- Arrivals do not concern rounds. -/
lemma Arrival.roundHistory (ha : Arrival s s') (h : RoundHistory s k n steps) :
    RoundHistory s' k n steps := by
  have hevents : s'.events = s.events ++ [] := by simpa using ha.events_eq
  rcases h with hopen | ⟨ps, hclosed⟩
  · have hlive : s'.live = s.live := by cases ha <;> rfl
    have hprimaries : s'.primaries = s.primaries := ha.settled.primaries
    exact .inl (hopen.keep [] ha.settled.round hlive hevents nofun nofun fun _ => by
      rw [hprimaries])
  · exact .inr ⟨ps, hclosed.extend (Nat.le_of_eq ha.settled.round.symm) hevents nofun⟩

end State

/-! ### Recorded rounds of reachable systems -/

/-- If the round is filled, its start was recorded, or whoever is inside the critical section is
about to record it. -/
def Announced (sys : System) : Prop :=
  sys.state.live.primaries ≤ sys.state.primaries.length →
    (∃ order, .roundStarted sys.state.round sys.state.primaries order ∈ sys.state.events) ∨
      ∃ a, sys.inside = some a ∧ (sys.fill? a).isSome

namespace Announced

variable {sys sys' : System}

/-- Unless somebody is about to record the start, a change that begins no round and chooses no
primary keeps the round announced. -/
lemma keep (h : Announced sys) (hidle : ∀ a, sys.inside = some a → sys.fill? a = none)
    (hsettled : Settled sys.state sys'.state)
    (hevents : sys.state.events ⊆ sys'.state.events) : Announced sys' := by
  intro hfull
  rw [hsettled.primaries, hsettled.live] at hfull
  rcases h hfull with ⟨order, hmem⟩ | ⟨a, hinside, ha⟩
  · refine .inl ⟨order, ?_⟩
    rw [hsettled.round, hsettled.primaries]
    exact hevents hmem
  · simp [hidle a hinside] at ha

/-- Every move keeps the round announced. -/
theorem step (h : Announced sys) (hinv : Invariant sys) (hs : System.Step sys sys') :
    Announced sys' := by
  obtain ⟨eligible, m, hm⟩ := hs
  cases hinv.roundMove hm with
  | begins t hinside hover hbegun =>
    intro hfull
    rw [hbegun.primaries, hbegun.live] at hfull
    exact absurd hfull (Nat.not_le.mpr hinv.sound.seating.staged.1)
  | fills index plan k ho hbefore hfilling hfill =>
    cases ho.stretch with
    | runOut _ _ _ hlen =>
      exact fun hfull => absurd hfull (Nat.not_le.mpr (hfilling.primaries ▸ hlen))
    | skipped | chosen => exact fun _ => .inr ⟨_, rfl, by rw [hfill, if_pos rfl]; rfl⟩
    | filled =>
      refine fun _ => .inl ⟨plan.order, ?_⟩
      rw [System.state_apply, Outcome.state, events_recordStart]
      exact List.mem_append_right _ (List.mem_singleton.mpr rfl)
  | aside haside hfill hidle =>
    exact h.keep hidle haside.settled (haside.events ▸ List.subset_append_left _ _)

/-- When a round closes its start has been recorded. -/
lemma recorded_of_round_ne (h : Announced sys) (hinv : Invariant sys)
    (hs : System.Step sys sys') (hne : sys'.state.round ≠ sys.state.round)
    (hbegun : sys.state.round ≠ 0) :
    ∃ order, .roundStarted sys.state.round sys.state.primaries order ∈ sys.state.events := by
  obtain ⟨eligible, m, hm⟩ := hs
  cases hinv.roundMove hm with
  | begins t hinside hover _ hnone =>
    -- Nobody is about to record it.
    refine (h (hover.resolve_left hbegun).1).resolve_right ?_
    rintro ⟨a, -, ha⟩
    simp [hnone a] at ha
  | fills index plan k ho => cases ho.stretch <;> exact absurd rfl hne
  | aside haside => exact absurd haside.settled.round hne

end Announced

/-- What was recorded in a system that can be reached. -/
structure Recorded (sys : System) : Prop where
  invariant : Invariant sys
  chronicle : Chronicle sys.state
  announced : Announced sys

namespace Recorded

variable {c : Config} {sys sys' : System} {k n steps : Nat}

theorem of_reachable (h : System.Reachable c sys) : Recorded sys := by
  induction h using System.Reachable.induction with
  | initial sys hstart =>
    refine ⟨Invariant.initial hstart, ?_, ?_⟩
    all_goals obtain ⟨rounds, hrobin, rfl⟩ := Invariant.exists_rounds_of_initial hstart
    · exact ⟨nofun, nofun, nofun, nofun⟩
    · exact fun hfull => absurd hfull (Nat.not_le.mpr hrobin.1)
  | step sys sys' _ hs ih =>
    refine ⟨ih.invariant.step hs, ?_, ih.announced.step ih.invariant hs⟩
    rcases ih.invariant.effect hs with ⟨w, hchange⟩ | harrival
    · exact hchange.chronicle ih.invariant.sound ih.chronicle
    · exact harrival.chronicle ih.chronicle

/-- Every move keeps what is known of a round. -/
theorem roundHistory_step (h : Recorded sys) (hs : System.Step sys sys') (hk : k ≠ 0)
    (hhistory : RoundHistory sys.state k n steps) : RoundHistory sys'.state k n steps := by
  rcases h.invariant.effect hs with ⟨w, hchange⟩ | harrival
  · exact hchange.roundHistory h.invariant.sound h.chronicle hk
      (h.announced.recorded_of_round_ne h.invariant hs) hhistory
  · exact harrival.roundHistory hhistory

/-- Along a run what is known of a round is kept. -/
theorem roundHistory_path (h : System.Reachable c sys) (hp : System.Path sys sys') (hk : k ≠ 0)
    (hhistory : RoundHistory sys.state k n steps) : RoundHistory sys'.state k n steps := by
  induction hp with
  | refl => exact hhistory
  | tail hp hs ih => exact (of_reachable (h.path hp)).roundHistory_step hs hk ih

end Recorded

/-! ### The turns of a round -/

namespace System

/-- A move begins the round `k`. -/
structure BeginsRound (c : Config) (k : Nat) (before after : System) : Prop where
  reachable : Reachable c before
  step : Step before after
  round_before : before.state.round + 1 = k
  round_after : after.state.round = k

/-- The primaries of a round, as far as they are chosen: those of the current round, or those that
the recorded start of an earlier round names. -/
def roundPrimaries? (sys : System) (k : Nat) : Option (List ThreadId) :=
  if k = sys.state.round then some sys.state.primaries
  else (sys.state.journal.schedule.roundStarts.find? fun start => start.1 = k).map fun start =>
    start.2.1

variable {c : Config} {sys before after : System} {k : Nat}

/-- A move leaves the round alone or begins the next one. -/
lemma round_of_step (h : Reachable c before) (hs : Step before after) :
    after.state.round = before.state.round ∨
      after.state.round = before.state.round + 1 ∧ after.state.primaries = [] ∧
        after.state.live = before.state.staged ∧ after.state.events = before.state.events := by
  have hinv := Invariant.of_reachable h
  rcases hinv.effect hs with ⟨w, hchange⟩ | harrival
  · exact hchange.round_eq
  · exact .inl harrival.settled.round

/-- A move records events of the round in which it begins, after those that were recorded. -/
lemma Step.exists_events (h : Reachable c before) (hs : Step before after) :
    ∃ new, after.state.events = before.state.events ++ new ∧
      ∀ e ∈ new, e.round = before.state.round := by
  rcases (Invariant.of_reachable h).effect hs with ⟨w, hchange⟩ | harrival
  · exact hchange.exists_new
  · exact ⟨[], by simpa using harrival.events_eq, nofun⟩

/-- Along a run events are recorded one after the other, in the order of their rounds. -/
lemma Path.exists_events (h : Reachable c before) (hp : Path before after) :
    before.state.round ≤ after.state.round ∧
      ∃ new, after.state.events = before.state.events ++ new ∧
        ∀ e ∈ new, before.state.round ≤ e.round := by
  induction hp with
  | refl => exact ⟨Nat.le_refl _, [], (List.append_nil _).symm, nofun⟩
  | tail hp hs ih =>
    obtain ⟨hround, new, hevents, hnew⟩ := ih
    obtain ⟨new', hevents', hnew'⟩ := hs.exists_events (h.path hp)
    refine ⟨?_, new ++ new', by rw [hevents', hevents, List.append_assoc], fun e he => ?_⟩
    · rcases round_of_step (h.path hp) hs with heq | ⟨heq, -⟩ <;> omega
    · rcases List.mem_append.mp he with he | he
      · exact hnew e he
      · exact hnew' e he ▸ hround

/-- Every round that was begun was begun by a move. -/
lemma exists_beginsRound (h : Reachable c sys) (hk : 1 ≤ k) (hround : k ≤ sys.state.round) :
    ∃ before after, BeginsRound c k before after ∧ Path after sys := by
  induction h using Reachable.induction with
  | initial sys hstart =>
    obtain ⟨rounds, -, rfl⟩ := Invariant.exists_rounds_of_initial hstart
    exact absurd (Nat.le_trans hk hround) (by simp)
  | step mid sys hreach hs ih =>
    by_cases hle : k ≤ mid.state.round
    · obtain ⟨before, after, hbegins, hafter⟩ := ih hle
      exact ⟨before, after, hbegins, hafter.tail hs⟩
    · rcases round_of_step hreach hs with heq | ⟨heq, -⟩
      · exact absurd (heq ▸ hround) hle
      · refine ⟨_, _, ⟨hreach, hs, ?_, ?_⟩, .refl⟩ <;> omega

/-- A round begins with the staged configuration, and nothing has been recorded of it. -/
lemma BeginsRound.roundOpen (h : BeginsRound c k before after) :
    after.state.live = before.state.staged ∧
      RoundOpen after.state k before.state.staged.primaries
        before.state.staged.stepsPerPrimary := by
  have hbefore := Recorded.of_reachable h.reachable
  rcases round_of_step h.reachable h.step with heq | ⟨-, -, hlive, hevents⟩
  · have hround := h.round_before
    have hround' := h.round_after
    omega
  · -- Events of the new round would have been recorded too early.
    have hnew : ∀ e ∈ after.state.events, e.round ≠ k := fun e he heq => by
      have hle := hbefore.chronicle.rounds e (hevents ▸ he)
      have hround := h.round_before
      omega
    have hlimit : ∀ slot, after.state.journal.schedule.passLimit k after.state.primaries slot =
        none := by
      intro slot
      rw [Schedule.passLimit]
      cases after.state.primaries[slot]? with
      | none => rfl
      | some t =>
        have ht : .terminated k t ∉ after.state.journal.schedule.events := fun ht => hnew _ ht rfl
        simp [ht]
    refine ⟨hlive, h.round_after, by rw [hlive], ?_⟩
    have hslots : after.state.journal.schedule.turnSlots k = [] :=
      Schedule.turnSlots_eq_nil fun t slot ht => hnew _ ht rfl
    rw [hslots, hlive, List.nil_append, keptPasses_congr fun slot _ => hlimit slot,
      keptPasses_unlimited]
    exact hbefore.invariant.sound.seating.staged.order_eq

/-- The start of an earlier round that was recorded names its primaries. -/
lemma roundPrimaries?_eq {ps : List ThreadId} (hlt : k < sys.state.round)
    (hrecorded : ∃ order, .roundStarted k ps order ∈ sys.state.events)
    (hunique : ∀ ps' order, .roundStarted k ps' order ∈ sys.state.events → ps' = ps) :
    sys.roundPrimaries? k = some ps := by
  rw [roundPrimaries?, if_neg (Nat.ne_of_lt hlt)]
  obtain ⟨order, hmem⟩ := hrecorded
  cases hfind : sys.state.journal.schedule.roundStarts.find? fun start => start.1 = k with
  | none => simpa using List.find?_eq_none.mp hfind _ (Schedule.mem_roundStarts.mpr hmem)
  | some start =>
    obtain ⟨k', ps', order'⟩ := start
    obtain rfl : k' = k := by simpa using List.find?_some hfind
    have hps := hunique ps' order'
      (Schedule.mem_roundStarts.mp (List.mem_of_find?_eq_some hfind))
    exact congrArg some hps

end System

/-- The turns of a round and the steps left of it are the passes with which it began, except for the
steps that retired threads gave up; each turn was taken by the primary of its slot, and nobody took
more turns than there were passes. -/
theorem turns_follow_order {c : Config} {sys : System} {tr : Schedule} {k : Nat}
    (h : System.Reachable c sys) (hrecords : sys.schedule? = some tr) (hk : 1 ≤ k)
    (hround : k ≤ sys.state.round) :
    (∃ before after, System.BeginsRound c k before after ∧ System.Path after sys) ∧
    ∀ before after, System.BeginsRound c k before after → System.Path after sys →
      ∃ n steps ps, before.state.staged.primaries = n ∧
        before.state.staged.stepsPerPrimary = steps ∧
        after.state.live = ⟨n, RoundConfig.passes n steps⟩ ∧
        sys.roundPrimaries? k = some ps ∧
        (k = sys.state.round →
          tr.turnSlots k ++ sys.state.live.order = keptPasses n steps (tr.passLimit k ps)) ∧
        (k < sys.state.round → tr.turnSlots k <+: keptPasses n steps (tr.passLimit k ps)) ∧
        (∀ t slot, (k, t, slot) ∈ tr.turns → ps[slot]? = some t) ∧
        ∀ t, tr.turnCount k t ≤ steps := by
  refine ⟨System.exists_beginsRound h hk hround, fun before after hbegins hpath => ?_⟩
  obtain rfl : sys.state.journal.schedule = tr := by
    simpa [System.schedule?] using (Option.ite_none_right_eq_some.mp hrecords).2
  obtain ⟨hlive, hopen⟩ := hbegins.roundOpen
  have hbefore := Recorded.of_reachable hbegins.reachable
  have hsys := Recorded.of_reachable h
  have hhistory : State.RoundHistory sys.state k before.state.staged.primaries
      before.state.staged.stepsPerPrimary :=
    Recorded.roundHistory_path (hbegins.reachable.step hbegins.step) hpath
      (Nat.one_le_iff_ne_zero.mp hk) (.inl hopen)
  have hplan : after.state.live = ⟨before.state.staged.primaries,
      RoundConfig.passes before.state.staged.primaries before.state.staged.stepsPerPrimary⟩ := by
    rw [hlive, ← hbefore.invariant.sound.seating.staged.order_eq]
  rcases hhistory with hopen | ⟨ps, hclosed⟩
  · obtain rfl := hopen.round
    have hnamed := hsys.chronicle.named
    have hprefix : sys.state.journal.schedule.turnSlots sys.state.round <+: _ :=
      ⟨_, hopen.order⟩
    exact ⟨_, _, sys.state.primaries, rfl, rfl, hplan, if_pos rfl, fun _ => hopen.order,
      fun hlt => absurd hlt (Nat.lt_irrefl _),
      fun t slot ht => hnamed t slot (Schedule.mem_turns.mp ht),
      Schedule.turnCount_le hsys.invariant.sound.seating.nodup hnamed hprefix⟩
  · exact ⟨_, _, ps, rfl, rfl, hplan,
      System.roundPrimaries?_eq hclosed.round hclosed.recorded hclosed.unique,
      fun heq => absurd hclosed.round (heq ▸ Nat.lt_irrefl _), fun _ => hclosed.order,
      fun t slot ht => hclosed.named t slot (Schedule.mem_turns.mp ht),
      Schedule.turnCount_le hclosed.nodup hclosed.named hclosed.order⟩

/-! ### A thread that retires early -/

/-- A recording scheduler for rounds of two primaries with two steps each. -/
def twoStepConfig : Config := { primaries := 2, stepsPerPrimary := 2, recordSchedule := true }

/-- The moves by which two threads take a turn each, after which the first one retires. -/
def earlyRetirement : List Move :=
  [.call (.client 0) (.submit .noop), .advance, .advance,
    .call (.client 0) (.submit .noop), .advance, .advance,
    .call (.unit ⟨0⟩) .turn, .advance, .advance, .advance, .advance, .advance,
    .call (.unit ⟨1⟩) .turn, .advance, .advance,
    .call (.unit ⟨0⟩) .retire, .advance, .advance, .advance]

/-- Once the first of two threads retired, what is left of the second pass belongs to the other. -/
theorem turns_follow_order_earlyRetirement :
    ∃ sys tr, System.run? twoStepConfig (fun _ => true) earlyRetirement = some sys ∧
      sys.schedule? = some tr ∧ tr.turnSlots 1 = [0, 1] ∧
      (∃ before after, System.BeginsRound twoStepConfig 1 before after ∧
        System.Path after sys) ∧
      keptPasses 2 2 (tr.passLimit 1 [⟨0⟩, ⟨1⟩]) = [0, 1, 1] ∧ tr.turnCount 1 ⟨0⟩ = 1 := by
  obtain ⟨sys, tr, hrun, hrecords, hround, hslots, hkept, hcount⟩ : ∃ sys tr,
      System.run? twoStepConfig (fun _ => true) earlyRetirement = some sys ∧
      sys.schedule? = some tr ∧ sys.state.round = 1 ∧ tr.turnSlots 1 = [0, 1] ∧
      keptPasses 2 2 (tr.passLimit 1 [⟨0⟩, ⟨1⟩]) = [0, 1, 1] ∧ tr.turnCount 1 ⟨0⟩ = 1 :=
    ⟨_, _, rfl, rfl, rfl, rfl, rfl, rfl⟩
  have hturns := turns_follow_order (System.reachable_of_run? hrun) hrecords (k := 1)
    (Nat.le_refl 1) (Nat.le_of_eq hround.symm)
  exact ⟨sys, tr, hrun, hrecords, hslots, hturns.1, hkept, hcount⟩

end RoundScheduler
