import Mathlib.Data.List.Basic
import RoundScheduler.Proofs.TurnOrder

/-!
# Requests take effect between rounds

A request for a new configuration may come at any time, also while the round in which it is made is
still being filled, when it is recorded before the start of that round. All the same it concerns
later rounds only. Which configuration is in force in a round can be read off the schedule: it is
the one asked for last in an earlier round, or else the one that the scheduler was built with. The
staged configuration is in force in the next round, and what a thread that fills a round announces
at the end is what was in force at its beginning.
-/

namespace RoundScheduler

open State

/-! ### What a schedule says of configurations -/

/-- The numbers of primaries and of steps that the event staged before a round, if it did. -/
def Event.stagedBefore? (k : Nat) : Event → Option (Nat × Nat)
  | reconfigured round primaries steps => if round < k then some (primaries, steps) else none
  | _ => none

namespace Schedule

/-- The numbers of primaries and of steps in force in a round: those that were asked for last before
it, or else those of the configuration of the scheduler. -/
def inForce (c : Config) (s : Schedule) (k : Nat) : Nat × Nat :=
  (s.events.filterMap (Event.stagedBefore? k)).getLast?.getD (c.primaries, c.stepsPerPrimary)

variable {c : Config} {es new : List Event} {j k n steps : Nat}

/-- Events that stage nothing before a round do not concern it. -/
lemma inForce_append (h : ∀ e ∈ new, e.stagedBefore? k = none) :
    inForce c ⟨es ++ new⟩ k = inForce c ⟨es⟩ k := by
  rw [inForce, List.filterMap_append, List.filterMap_eq_nil_iff.mpr h, List.append_nil]
  rfl

/-- Events of a round stage nothing before it. -/
lemma stagedBefore?_of_le {e : Event} (h : k ≤ e.round) : e.stagedBefore? k = none := by
  cases e with
  | reconfigured round primaries steps => exact if_neg (Nat.not_lt.mpr h)
  | _ => rfl

/-- The same is in force in all rounds that nothing was recorded of. -/
lemma inForce_of_lt (h : ∀ e ∈ es, e.round < j) (hjk : j ≤ k) :
    inForce c ⟨es⟩ k = inForce c ⟨es⟩ j := by
  have hsame : es.filterMap (Event.stagedBefore? k) = es.filterMap (Event.stagedBefore? j) := by
    refine List.filterMap_congr fun e he => ?_
    cases e with
    | reconfigured round primaries steps =>
      have hj : round < j := h _ he
      rw [Event.stagedBefore?, if_pos (Nat.lt_of_lt_of_le hj hjk), Event.stagedBefore?, if_pos hj]
    | _ => rfl
  rw [inForce, hsame]
  rfl

/-- A request is in force in later rounds until another one supersedes it. -/
lemma inForce_reconfigured (hk : k < j) (h : ∀ e ∈ new, e.stagedBefore? j = none) :
    inForce c ⟨es ++ .reconfigured k n steps :: new⟩ j = (n, steps) := by
  have hstaged : (Event.reconfigured k n steps).stagedBefore? j = some (n, steps) := if_pos hk
  rw [inForce, List.filterMap_append, List.filterMap_cons_some hstaged,
    List.filterMap_eq_nil_iff.mpr h, List.getLast?_concat]
  rfl

/-- A request does not concern the round in which it is made, nor earlier ones. -/
lemma inForce_of_request (hk : j ≤ k) :
    inForce c ⟨es ++ .reconfigured k n steps :: new⟩ j = inForce c ⟨es ++ new⟩ j := by
  have hnone : (Event.reconfigured k n steps).stagedBefore? j = none := stagedBefore?_of_le hk
  rw [inForce, List.filterMap_append, List.filterMap_cons_none hnone, ← List.filterMap_append]
  rfl

end Schedule

/-- The configuration with a number of primaries and a number of steps for each. -/
def RoundConfig.ofPasses (numbers : Nat × Nat) : RoundConfig :=
  ⟨numbers.1, passes numbers.1 numbers.2⟩

lemma RoundConfig.eq_ofPasses {n steps : Nat} {r : RoundConfig} (h : roundRobin n steps = .ok r) :
    r = ofPasses (n, steps) := by
  unfold roundRobin at h
  cases hcheck : EmptyRound.check n steps with
  | error e => simp [hcheck] at h
  | ok u =>
    by_cases hlimit : n < Word.rowLimit
    · simp only [hcheck, hlimit, if_true, Except.ok.injEq] at h
      exact h.symm
    · simp [hcheck, hlimit] at h

/-! ### The configurations of a system -/

/-- The configurations of a system are those that its schedule says are in force. -/
structure Planned (c : Config) (sys : System) : Prop where
  /-- The staged configuration will be in force in the next round. -/
  staged : sys.state.staged =
    .ofPasses (sys.state.journal.schedule.inForce c (sys.state.round + 1))
  /-- The current round has as many slots as the configuration in force. -/
  live : sys.state.round ≠ 0 →
    sys.state.live.primaries = (sys.state.journal.schedule.inForce c sys.state.round).1
  /-- Whoever fills the round will announce the configuration in force. -/
  plans : ∀ a index plan, sys.fill? a = some (index, plan) →
    plan = .ofPasses (sys.state.journal.schedule.inForce c sys.state.round)
  /-- Recorded rounds started with the configuration in force. -/
  started : ∀ k ps order, .roundStarted k ps order ∈ sys.state.events →
    ps.length = (sys.state.journal.schedule.inForce c k).1 ∧
      order = (RoundConfig.ofPasses (sys.state.journal.schedule.inForce c k)).order

namespace Planned

variable {c : Config} {sys sys' : System} {new : List Event}

/-- In a system that nobody used the configuration of the scheduler is in force. -/
lemma initial (h : System.initial c = .ok sys) : Planned c sys := by
  obtain ⟨rounds, hrounds, rfl⟩ := Invariant.eq_of_initial h
  exact ⟨RoundConfig.eq_ofPasses hrounds, fun hround => absurd rfl hround, nofun, nofun⟩

/-- What is in force in the current round and before is not concerned by new events. -/
lemma inForce_eq (hevents : sys'.state.events = sys.state.events ++ new)
    (hnew : ∀ e ∈ new, e.round = sys.state.round) {k : Nat} (hk : k ≤ sys.state.round) :
    sys'.state.journal.schedule.inForce c k = sys.state.journal.schedule.inForce c k := by
  rw [schedule_eq hevents]
  exact Schedule.inForce_append fun e he => Schedule.stagedBefore?_of_le (hnew e he ▸ hk)

/-- Starts of rounds stay in agreement while nothing is recorded but events of the current round. -/
lemma started_append (h : Planned c sys) (hchronicle : Chronicle sys.state)
    (hevents : sys'.state.events = sys.state.events ++ new)
    (hnew : ∀ e ∈ new, e.round = sys.state.round)
    (hstart : ∀ k ps order, .roundStarted k ps order ∈ new →
      ps.length = (sys.state.journal.schedule.inForce c k).1 ∧
        order = (RoundConfig.ofPasses (sys.state.journal.schedule.inForce c k)).order) :
    ∀ k ps order, .roundStarted k ps order ∈ sys'.state.events →
      ps.length = (sys'.state.journal.schedule.inForce c k).1 ∧
        order = (RoundConfig.ofPasses (sys'.state.journal.schedule.inForce c k)).order := by
  intro k ps order hmem
  have hcases := List.mem_append.mp (hevents ▸ hmem)
  have hk : k ≤ sys.state.round :=
    hcases.elim (hchronicle.rounds _) fun he => Nat.le_of_eq (hnew _ he)
  rw [inForce_eq hevents hnew hk]
  exact hcases.elim (h.started k ps order) (hstart k ps order)

/-- Within a round the agreement is kept if what is staged is what was asked for last. -/
lemma within (h : Planned c sys) (hchronicle : Chronicle sys.state)
    (hround : sys'.state.round = sys.state.round)
    (hlive : sys'.state.live.primaries = sys.state.live.primaries)
    (hplans : ∀ a index plan, sys'.fill? a = some (index, plan) →
      ∃ b index', sys.fill? b = some (index', plan))
    (hevents : sys'.state.events = sys.state.events ++ new)
    (hnew : ∀ e ∈ new, e.round = sys.state.round)
    (hstaged : sys'.state.staged =
      .ofPasses (sys'.state.journal.schedule.inForce c (sys.state.round + 1)))
    (hstart : ∀ k ps order, .roundStarted k ps order ∈ new →
      ps.length = (sys.state.journal.schedule.inForce c k).1 ∧
        order = (RoundConfig.ofPasses (sys.state.journal.schedule.inForce c k)).order) :
    Planned c sys' := by
  constructor
  case staged => rw [hstaged, hround]
  case live =>
    intro hbegun
    rw [hround] at hbegun
    rw [hlive, hround, inForce_eq hevents hnew (Nat.le_refl _), h.live hbegun]
  case plans =>
    intro a index plan ha
    obtain ⟨b, index', hb⟩ := hplans a index plan ha
    rw [hround, inForce_eq hevents hnew (Nat.le_refl _), h.plans b index' plan hb]
  case started => exact h.started_append hchronicle hevents hnew hstart

/-- What is staged stays what was asked for last while nobody asks for anything. -/
lemma staged_eq (h : Planned c sys) (hstaged : sys'.state.staged = sys.state.staged)
    (hevents : sys'.state.events = sys.state.events ++ new)
    (hnew : ∀ e ∈ new, e.isReconfiguration = false) : sys'.state.staged =
      .ofPasses (sys'.state.journal.schedule.inForce c (sys.state.round + 1)) := by
  rw [hstaged, h.staged, schedule_eq hevents]
  refine congrArg _ (Schedule.inForce_append fun e he => ?_).symm
  cases e with
  | reconfigured => cases hnew _ he
  | _ => rfl

/-- A round begins with the staged configuration. -/
lemma begin (h : Planned c sys) (hchronicle : Chronicle sys.state)
    (hbegun : Begun sys.state sys'.state)
    (hplans : ∀ a index plan, sys'.fill? a = some (index, plan) → plan = sys.state.staged) :
    Planned c sys' := by
  have hschedule : sys'.state.journal.schedule = sys.state.journal.schedule :=
    congrArg Schedule.mk hbegun.events
  constructor
  case staged =>
    -- Nothing was recorded of the new round, so the same is in force in the one after it.
    have hlt : ∀ e ∈ sys.state.events, e.round < sys.state.round + 1 := fun e he =>
      Nat.lt_succ_of_le (hchronicle.rounds e he)
    have hnext := Schedule.inForce_of_lt (c := c) hlt (Nat.le_succ (sys.state.round + 1))
    rw [hbegun.staged, hbegun.round, hschedule, h.staged]
    exact congrArg _ hnext.symm
  case live =>
    intro _
    rw [hbegun.live, hbegun.round, hschedule, h.staged]
    rfl
  case plans =>
    intro a index plan ha
    rw [hplans a index plan ha, hbegun.round, hschedule, h.staged]
  case started =>
    rw [hbegun.events, hschedule]
    exact h.started

/-- The start that is recorded at the end of a fill announces the configuration in force. -/
lemma announced (h : Planned c sys) (hinv : Invariant sys) {a : Agent} {index : Nat}
    {plan : RoundConfig} (ha : sys.fill? a = some (index, plan))
    (hlen : plan.primaries ≤ sys.state.primaries.length) :
    sys.state.primaries.length =
        (sys.state.journal.schedule.inForce c sys.state.round).1 ∧
      plan.order =
        (RoundConfig.ofPasses (sys.state.journal.schedule.inForce c sys.state.round)).order := by
  have hfilling := (hinv.fillers.filling a index plan ha).1
  have hlength : sys.state.primaries.length = plan.primaries :=
    Nat.le_antisymm (hfilling.primaries ▸ hinv.sound.seating.length_le) hlen
  rw [hlength, h.plans a index plan ha]
  exact ⟨rfl, rfl⟩

/-- Every move keeps the agreement. -/
theorem step (h : Planned c sys) (hinv : Invariant sys) (hchronicle : Chronicle sys.state)
    (hs : System.Step sys sys') : Planned c sys' := by
  obtain ⟨eligible, m, hm⟩ := hs
  cases hinv.roundMove hm with
  | begins t hinside hover hbegun hnone hfill =>
    refine h.begin hchronicle hbegun fun a index plan ha => ?_
    rw [hfill] at ha
    split at ha <;> cases ha
    rfl
  | @fills t index plan k o ho hbefore hfilling hfill =>
    cases ho.stretch with
    | runOut | skipped | chosen =>
      refine h.within hchronicle rfl rfl (fun a index' plan' ha => ?_) (List.append_nil _).symm
        nofun h.staged nofun
      rw [hfill] at ha
      split at ha <;> cases ha
      exact ⟨.unit t, index, hbefore⟩
    | filled _ _ _ hlen =>
      have hevents : (sys.state.recordStart plan.order).events =
          sys.state.events ++ [.roundStarted sys.state.round sys.state.primaries plan.order] :=
        events_recordStart plan.order
      refine h.within hchronicle rfl rfl (fun a _ _ ha => ?_) hevents (by simp [Event.round])
        (h.staged_eq rfl hevents (by simp [Event.isReconfiguration])) fun k ps order hmem => ?_
      · simp [System.none_of_filled hfill a] at ha
      · cases List.mem_singleton.mp hmem
        exact h.announced hinv hbefore hlen
  | aside haside hfill =>
    refine h.within hchronicle haside.settled.round haside.settled.live
      (fun a index plan ha => ⟨a, index, hfill a ▸ ha⟩) haside.events
      (fun e he => (haside.current e he).1) ?_ fun k ps order hmem => ?_
    · rcases haside.staged with ⟨hstaged, hnew⟩ | ⟨t, slot, n, steps, hrounds, rfl⟩
      · exact h.staged_eq hstaged haside.events hnew
      · rw [RoundConfig.eq_ofPasses hrounds, schedule_eq haside.events, List.append_cons]
        exact congrArg _ (Schedule.inForce_reconfigured (Nat.lt_succ_self _) (by simp)).symm
    · cases (haside.current _ hmem).2

/-- The agreement holds of every system that can be reached. -/
theorem of_reachable (h : System.Reachable c sys) : Planned c sys := by
  induction h using System.Reachable.induction with
  | initial sys hstart => exact initial hstart
  | step sys sys' hreach hs ih =>
    have hrecorded := Recorded.of_reachable hreach
    exact ih.step hrecorded.invariant hrecorded.chronicle hs

end Planned

/-! ### Requests of a run -/

namespace System

variable {c : Config} {sys mid before after : System}

/-- Events are recorded in the order of their rounds. -/
lemma Reachable.pairwise_events (h : Reachable c sys) :
    sys.state.events.Pairwise fun e e' => e.round ≤ e'.round := by
  induction h using Reachable.induction with
  | initial sys hstart =>
    obtain ⟨rounds, -, rfl⟩ := Invariant.exists_rounds_of_initial hstart
    exact .nil
  | step sys sys' hreach hs ih =>
    obtain ⟨new, hevents, hnew⟩ := hs.exists_events hreach
    have hrounds := (Recorded.of_reachable hreach).chronicle.rounds
    rw [hevents]
    refine List.pairwise_append.mpr ⟨ih, ?_, fun e he e' he' => hnew e' he' ▸ hrounds e he⟩
    exact List.pairwise_of_forall_mem_list fun e he e' he' =>
      Nat.le_of_eq ((hnew e he).trans (hnew e' he').symm)

/-- What happens later does not change what is in force in a round. -/
lemma Path.inForce_eq (h : Reachable c mid) (hp : Path mid sys) {k : Nat}
    (hk : k ≤ mid.state.round) :
    sys.state.journal.schedule.inForce c k = mid.state.journal.schedule.inForce c k := by
  obtain ⟨-, new, hevents, hnew⟩ := Path.exists_events h hp
  rw [schedule_eq hevents]
  exact Schedule.inForce_append fun e he =>
    Schedule.stagedBefore?_of_le (Nat.le_trans hk (hnew e he))

/-- A round begins with the configuration in force. -/
lemma BeginsRound.live_eq {k : Nat} (h : BeginsRound c k before after) :
    after.state.live = .ofPasses (after.state.journal.schedule.inForce c k) := by
  rcases round_of_step h.reachable h.step with heq | ⟨-, -, hlive, hevents⟩
  · have hround := h.round_before
    have hround' := h.round_after
    omega
  · have hschedule : after.state.journal.schedule = before.state.journal.schedule :=
      congrArg Schedule.mk hevents
    rw [hlive, hschedule, ← h.round_before]
    exact (Planned.of_reachable h.reachable).staged

end System

/-- Every round begins with the configuration in force, keeps its number of primaries and announces
the same configuration once it is filled. A request concerns neither the round in which it is made,
even if that round has not been announced, nor earlier ones; it is in force in later rounds until
another one supersedes it. -/
theorem requests_take_effect_between_rounds {c : Config} {sys : System} {tr : Schedule}
    (h : System.Reachable c sys) (hrecords : sys.schedule? = some tr) :
    (∀ k ps order, (k, ps, order) ∈ tr.roundStarts →
      ps.length = (tr.inForce c k).1 ∧
        order = RoundConfig.passes (tr.inForce c k).1 (tr.inForce c k).2) ∧
    (∀ k before after, System.BeginsRound c k before after → System.Path after sys →
      after.state.live = .ofPasses (tr.inForce c k)) ∧
    (∀ mid, System.Reachable c mid → System.Path mid sys → 1 ≤ mid.state.round →
      mid.state.live.primaries = (tr.inForce c mid.state.round).1) ∧
    ∀ earlier later k n steps, tr.events = earlier ++ .reconfigured k n steps :: later →
      (∀ j ≤ k, tr.inForce c j = Schedule.inForce c ⟨earlier ++ later⟩ j) ∧
      ∀ j, k < j →
        (∀ i n' steps', k ≤ i → i < j → .reconfigured i n' steps' ∉ later) →
        tr.inForce c j = (n, steps) := by
  obtain rfl : sys.state.journal.schedule = tr := by
    simpa [System.schedule?] using (Option.ite_none_right_eq_some.mp hrecords).2
  refine ⟨fun k ps order hstart => ?_, fun k before after hbegins hpath => ?_,
    fun mid hmid hpath hbegun => ?_, fun earlier later k n steps hevents => ⟨fun j hj => ?_,
    fun j hj hlast => ?_⟩⟩
  · exact (Planned.of_reachable h).started k ps order (Schedule.mem_roundStarts.mp hstart)
  · rw [hbegins.live_eq, System.Path.inForce_eq (hbegins.reachable.step hbegins.step) hpath
      (Nat.le_of_eq hbegins.round_after.symm)]
  · rw [System.Path.inForce_eq hmid hpath (Nat.le_refl _)]
    exact (Planned.of_reachable hmid).live (Nat.one_le_iff_ne_zero.mp hbegun)
  · have hschedule : sys.state.journal.schedule = ⟨earlier ++ .reconfigured k n steps :: later⟩ :=
      congrArg Schedule.mk hevents
    rw [hschedule]
    exact Schedule.inForce_of_request hj
  · have hschedule : sys.state.journal.schedule = ⟨earlier ++ .reconfigured k n steps :: later⟩ :=
      congrArg Schedule.mk hevents
    have hsorted := h.pairwise_events
    rw [State.events, hevents] at hsorted
    have hlater := (List.pairwise_cons.mp (List.pairwise_append.mp hsorted).2.1).1
    rw [hschedule]
    refine Schedule.inForce_reconfigured hj fun e he => ?_
    cases e with
    | reconfigured i n' steps' =>
      exact if_neg fun hi => hlast i n' steps' (hlater _ he) hi he
    | _ => rfl

/-! ### A request in a round that lacks primaries -/

/-- A recording scheduler for rounds of three primaries with one step each. -/
def threePrimariesConfig : Config := { primaries := 3, recordSchedule := true }

/-- The moves by which the second of two threads fills the first round and sleeps for want of a
third one, while the first one asks for one primary with two steps; then a third thread comes, and
everybody goes on until the next round is filled. -/
def requestBeforeStart : List Move :=
  [.call (.client 0) (.submit .noop), .advance, .advance,
    .call (.client 0) (.submit .noop), .advance, .advance,
    .call (.unit ⟨1⟩) .turn, .advance, .advance, .advance, .advance,
    .call (.unit ⟨0⟩) (.reconfigure (.both 1 2)), .advance, .advance,
    .call (.client 0) (.submit .noop), .advance, .advance,
    .enter (.unit ⟨1⟩), .advance, .advance, .advance,
    .call (.unit ⟨2⟩) .turn, .advance, .advance,
    .call (.unit ⟨0⟩) .turn, .advance, .advance, .advance, .advance,
    .call (.unit ⟨1⟩) .turn, .advance, .advance, .advance, .advance,
    .call (.unit ⟨2⟩) .turn, .advance, .advance, .advance, .advance, .advance]

/-- The request is recorded before the start of the first round, which has three primaries all the
same, and it is in force in the second one. -/
theorem requests_take_effect_between_rounds_requestBeforeStart :
    ∃ sys tr, System.run? threePrimariesConfig (fun _ => true) requestBeforeStart = some sys ∧
      sys.schedule? = some tr ∧
      tr.events = [.turn 1 ⟨0⟩ 0, .reconfigured 1 1 2,
        .roundStarted 1 [⟨0⟩, ⟨1⟩, ⟨2⟩] [0, 1, 2], .turn 1 ⟨1⟩ 1, .turn 1 ⟨2⟩ 2,
        .roundStarted 2 [⟨0⟩] [0, 0]] ∧
      3 = (tr.inForce threePrimariesConfig 1).1 ∧ tr.inForce threePrimariesConfig 2 = (1, 2) ∧
      [0, 0] = RoundConfig.passes (tr.inForce threePrimariesConfig 2).1
        (tr.inForce threePrimariesConfig 2).2 := by
  obtain ⟨sys, tr, hrun, hrecords, hevents, hstarts⟩ : ∃ sys tr,
      System.run? threePrimariesConfig (fun _ => true) requestBeforeStart = some sys ∧
      sys.schedule? = some tr ∧
      tr.events = [.turn 1 ⟨0⟩ 0] ++ .reconfigured 1 1 2 ::
        [.roundStarted 1 [⟨0⟩, ⟨1⟩, ⟨2⟩] [0, 1, 2], .turn 1 ⟨1⟩ 1, .turn 1 ⟨2⟩ 2,
          .roundStarted 2 [⟨0⟩] [0, 0]] ∧
      tr.roundStarts = [(1, [⟨0⟩, ⟨1⟩, ⟨2⟩], [0, 1, 2]), (2, [⟨0⟩], [0, 0])] :=
    ⟨_, _, rfl, rfl, rfl, rfl⟩
  obtain ⟨hstarted, -, -, hrequest⟩ :=
    requests_take_effect_between_rounds (System.reachable_of_run? hrun) hrecords
  have hfirst := hstarted 1 [⟨0⟩, ⟨1⟩, ⟨2⟩] [0, 1, 2] (by simp [hstarts])
  have hsecond := hstarted 2 [⟨0⟩] [0, 0] (by simp [hstarts])
  exact ⟨sys, tr, hrun, hrecords, hevents, hfirst.1,
    (hrequest _ _ 1 1 2 hevents).2 2 (by decide) (by simp), hsecond.2⟩

end RoundScheduler
