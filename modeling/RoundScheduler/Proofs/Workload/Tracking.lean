import RoundScheduler.Proofs.Backpressure
import RoundScheduler.Proofs.Determinism
import RoundScheduler.Proofs.LifeCycle
import RoundScheduler.Proofs.Progress
import RoundScheduler.Proofs.Workload.Groups

/-!
# Systems that follow the workload

A system that follows the agenda of the workload has a course on which the units contend for the
lock according to plan. This file keeps track of it, and shows that the system comes to rest only
when all units retired and everything on the plan happened.
-/

namespace RoundScheduler

open State

/-! ### Following an agenda -/

/-- The operation of a routine is that of its first order. -/
lemma Desk.operation_of_next? {d : Desk} {t : ThreadId} {order : Order}
    (h : d.next? t = some order) : (d.todo t).operation = order.operation := by
  obtain ⟨i, hi, rfl⟩ := Option.map_eq_some_iff.mp h
  cases htodo : d.todo t with
  | nil => simp [htodo] at hi
  | cons j rest =>
    rw [htodo] at hi
    cases hi
    rfl

namespace Agenda

/-- A system that follows an agenda is at rest: nobody inside an operation gets further by entering
the critical section, and nobody has an operation left to call. -/
structure Stops (w : Agenda) (sys : System) : Prop where
  free : sys.inside = none
  stuck : sys.IsStuck w.eligible
  silent : ∀ a op, w.permits sys (.call a op) = true →
    sys.move? w.eligible (.call a op) = none

variable {w : Agenda} {sys sys' : System}

/-- Locks stay. -/
lemma Step.lock?_isSome (h : w.Step sys sys') (hinv : Invariant sys) (l : LockId) :
    (sys'.state.lock? l).isSome = (sys.state.lock? l).isSome := by
  obtain ⟨m, hpermits, hm⟩ := h
  cases hinv.transition hm with
  | call a op o hinside hidle halive hlocks ho =>
    rw [System.state_apply]
    exact ho.lock?_isSome l
  | stretch t op ph o hinside hcall hop ho =>
    rw [System.state_apply]
    exact ho.lock?_isSome l
  | intake a op p o hinside hcall ho =>
    rw [System.state_apply, ho.lock?_eq]
  | enter a call hinside hcall => rfl
  | newLock hinside => cases hpermits
  | dropLock l hinside hl hunused => cases hpermits

/-- Nobody is kept from a call but by a lock that does not exist. -/
lemma Stops.exists_missing_lock (h : w.Stops sys) {t : ThreadId}
    (hidle : sys.calls.get? (.unit t) = none) (halive : sys.state.isAlive t = true) :
    ∃ l ∈ (w.todo t sys.returns).operation.locks, sys.state.lock? l = none := by
  by_contra hnone
  push Not at hnone
  have hlocks : (w.todo t sys.returns).operation.locks.all sys.state.locks.contains = true :=
    List.all_eq_true.mpr fun l hl => Option.isSome_iff_ne_none.mpr (hnone l hl)
  have hmove := h.silent (.unit t) (w.todo t sys.returns).operation (by simp [permits, next?])
  have halive' : sys.isAlive (.unit t) = true := halive
  simp only [System.move?, h.free, hidle, halive', hlocks, Option.isNone_none, Bool.and_self,
    if_true, Option.map_eq_none_iff] at hmove
  rcases Routine.operation_cases (w.todo t sys.returns) with ⟨p, hp⟩ | ⟨l, hl⟩ | hretire
  · rw [hp] at hmove
    cases p <;> cases hmove
  · rw [hl] at hmove
    cases hmove
  · rw [hretire] at hmove
    cases hmove

/-- The client submits no more units than there are. -/
structure Submits (w : Agenda) (sys : System) : Prop where
  le : submissions sys.returns ≤ w.units.length
  lt : (sys.calls.get? (.client 0)).isSome → submissions sys.returns < w.units.length

namespace Submits

variable {a : Agent} {op : Operation} {o : Outcome}

/-- What others do leaves the client to its submissions. -/
lemma apply_of_ne (h : w.Submits sys) (ha : a ≠ .client 0) : w.Submits (sys.apply a op o) := by
  have hreturns : submissions (sys.apply a op o).returns = submissions sys.returns := by
    rw [System.returns_apply, submissions, List.countP_append, submissions]
    cases o <;> simp [Outcome.returns, ha]
  refine ⟨hreturns ▸ h.le, fun hcall => hreturns ▸ h.lt ?_⟩
  rwa [System.get?_calls_apply, if_neg (Ne.symm ha)] at hcall

/-- The client goes on inside an operation, or returns from it. -/
lemma apply_client (hle : submissions sys.returns < w.units.length) :
    w.Submits (sys.apply (.client 0) op o) := by
  have hreturns : submissions (sys.apply (.client 0) op o).returns =
      submissions sys.returns + (o.returns (.client 0) op).length := by
    rw [System.returns_apply, submissions, List.countP_append, submissions, Nat.add_comm]
    cases o <;> simp [Outcome.returns]
  constructor
  · rw [hreturns]
    cases o <;> simp only [Outcome.returns, List.length_nil, List.length_singleton] <;> omega
  · intro hcall
    rw [hreturns]
    rw [System.get?_calls_apply, if_pos rfl] at hcall
    cases o with
    | reply s r => cases hcall
    | sleep | goto s p | pause s p => exact hle

/-- A step leaves the client to its submissions. -/
theorem step (h : w.Submits sys) (hinv : Invariant sys) (hstep : w.Step sys sys') :
    w.Submits sys' := by
  obtain ⟨m, hpermits, hm⟩ := hstep
  cases hinv.transition hm with
  | call a op o hinside hidle halive hlocks ho =>
    by_cases ha : a = .client 0
    · have hnext : w.next? sys a = some op := by simpa [permits] using hpermits
      rw [ha] at hnext
      obtain ⟨hlt, -⟩ := Option.ite_none_right_eq_some.mp hnext
      exact ha ▸ apply_client hlt
    · exact h.apply_of_ne ha
  | stretch t op ph o hinside hcall hop ho => exact h.apply_of_ne (by simp)
  | intake a op p o hinside hcall ho =>
    by_cases ha : a = .client 0
    · subst ha
      exact apply_client (h.lt (hcall ▸ rfl))
    · exact h.apply_of_ne ha
  | enter a call hinside hcall => exact ⟨h.le, h.lt⟩
  | newLock hinside => cases hpermits
  | dropLock l hinside hl hunused => cases hpermits

end Submits

end Agenda

/-- A submitter would fall asleep in the one way there is. -/
lemma Invariant.intake_sleep {sys : System} {eligible : ThreadId → Bool} (h : Invariant sys)
    (hstuck : sys.IsStuck eligible) {a : Agent} {op : Operation} {p : Submission}
    (hcall : sys.calls.get? a = some ⟨op, .submission p⟩) :
    Intake sys.config sys.state p .sleep := by
  have hsleep : p.step sys.config sys.state = .sleep := outcome_eq_sleep hstuck hcall
  exact hsleep ▸ h.intake_of_call hcall

/-! ### Before the first round -/

/-- Before the first round nobody got further than to the beginning of an ordered step or of a
retirement. -/
def System.Entering (sys : System) : Prop :=
  sys.state.round = 0 → ∀ t ph, sys.phase? (.unit t) = some ph →
    (∃ p, ph = .enter p) ∨ ph = .enterRetirement

namespace System.Entering

variable {sys sys' : System} {c : Config}

/-- No step leads back before the first round. -/
lemma round_eq_zero (hinv : Invariant sys) (hs : System.Step sys sys')
    (hround : sys'.state.round = 0) : sys.state.round = 0 := by
  rcases hinv.effect hs with ⟨w, hc⟩ | ha
  · rcases hc.round_eq with heq | ⟨heq, -⟩ <;> omega
  · exact ha.settled.round ▸ hround

/-- Nobody gets further before the first round by a step. -/
theorem step (h : sys.Entering) (hinv : Invariant sys) (hs : System.Step sys sys') :
    sys'.Entering := by
  intro hround t ph hph
  have hunbegun := round_eq_zero hinv hs hround
  have hbefore := h hunbegun
  obtain ⟨eligible, m, hm⟩ := hs
  cases hinv.transition hm with
  | call a op o hinside hidle halive hlocks ho =>
    rw [System.phase?_apply hidle] at hph
    split at hph
    · cases ho <;> cases hph
      all_goals first
        | exact .inl ⟨_, rfl⟩
        | exact .inr rfl
    · exact hbefore t ph hph
  | stretch u op ph' o hinside hcall hop ho =>
    have hplace : sys.phase? (.unit u) = some ph' := by rw [System.phase?, hcall]; rfl
    -- The beginning of an ordered step or of a retirement begins the first round.
    rcases hbefore u ph' hplace with ⟨p, rfl⟩ | rfl
    · cases ho with
      | bootstrap p hzero => simp [Outcome.state] at hround
      | entered p hround' => exact absurd hunbegun hround'
    · cases ho with
      | bootstrapRetirement hzero => simp [Outcome.state] at hround
      | enteredRetirement hround' => exact absurd hunbegun hround'
  | intake a op p o hinside hcall ho =>
    rw [System.phase?_apply hcall] at hph
    split at hph
    · cases ho <;> cases hph
    · exact hbefore t ph hph
  | enter a call hinside hcall => exact hbefore t ph hph
  | newLock hinside => exact hbefore t ph hph
  | dropLock l hinside hl hunused => exact hbefore t ph hph

/-- Nobody gets further before the first round. -/
theorem of_reachable (h : System.Reachable c sys) : sys.Entering := by
  induction h using System.Reachable.induction with
  | initial sys h =>
    obtain ⟨rounds, -, rfl⟩ := Invariant.exists_rounds_of_initial h
    intro _ t ph hph
    cases hph
  | step sys sys' h hs ih => exact ih.step (Invariant.of_reachable h) hs

end System.Entering

/-! ### The workload -/

/-- The terminations are those of the events. -/
lemma Schedule.mem_terminations_iff {s : Schedule} {t : ThreadId} :
    t ∈ s.terminations ↔ ∃ k, .terminated k t ∈ s.events := by
  rw [terminations, List.mem_filterMap]
  constructor
  · rintro ⟨e, he, ht⟩
    cases e with
    | terminated k u =>
      cases ht
      exact ⟨k, he⟩
    | _ => cases ht
  · rintro ⟨k, hk⟩
    exact ⟨_, hk, rfl⟩

namespace Workload

/-- What is known of a system that follows the workload, with its course. -/
structure Tracked (w : Workload) (cfg : Config) (sys : System) (c : Course) : Prop where
  shadow : Shadow (w.agenda cfg) sys c
  sound : c.Sound (w.agenda cfg).routine
  contention : Contention w cfg c
  onPlan : OnPlan w cfg c
  submits : (w.agenda cfg).Submits sys
  /-- There is one lock. -/
  registered : ∀ l, (sys.state.lock? l).isSome ↔ l = lock
  held : sys.state.HoldsAboveBound cfg

variable {w : Workload} {cfg : Config} {sys sys' : System} {c : Course} {t : ThreadId}

/-- The agenda has as many units as are submitted. -/
lemma length_units : (w.agenda cfg).units.length = w.size cfg := List.length_replicate

/-- A scheduler has the configuration of the workload, and there are primaries and steps. -/
lemma start_eq (h : (w.agenda cfg).start? = some sys) :
    0 < cfg.primaries ∧ 0 < cfg.stepsPerPrimary ∧ ∃ rounds : RoundConfig,
      rounds = ⟨cfg.primaries, RoundConfig.passes cfg.primaries cfg.stepsPerPrimary⟩ ∧
      sys = { config := cfg
              state := State.registerLock { live := rounds, staged := rounds } } := by
  have hstart : (System.initial cfg).toOption.bind
      (fun sys => System.follow? sys (fun _ => true) [.newLock]) = some sys := h
  cases hrounds : RoundConfig.roundRobin cfg.primaries cfg.stepsPerPrimary with
  | error e =>
    rw [System.initial, State.initial, hrounds] at hstart
    cases hstart
  | ok rounds =>
    have hrobin := RoundConfig.isRoundRobin_of_roundRobin hrounds
    obtain rfl := RoundConfig.eq_ofPasses hrounds
    have hsteps : 0 < cfg.stepsPerPrimary := Nat.lt_of_lt_of_eq hrobin.eq_passes.2
      (RoundConfig.stepsPerPrimary_passes hrobin.1 cfg.stepsPerPrimary)
    rw [System.initial, State.initial, hrounds] at hstart
    cases hstart
    exact ⟨hrobin.1, hsteps, _, rfl, rfl⟩

namespace Tracked

/-- The system at the start is tracked. -/
lemma start (h : (w.agenda cfg).start? = some sys) : ∃ c, Tracked w cfg sys c := by
  obtain ⟨rounds, hshadow⟩ := Shadow.of_start h
  obtain ⟨hprimaries, hsteps, rounds', rfl, rfl⟩ := start_eq h
  obtain rfl : rounds = _ := hshadow.mirrors.live
  refine ⟨_, hshadow, Shadow.sound_startCourse _ _, ?_, .unbegun ?_, ?_, ?_, ?_⟩
  · exact {
      live := rfl
      staged := rfl
      listed_le := Nat.zero_le _
      standing := fun t ht => .between (Nat.zero_le _) (w.routine_agenda cfg ht) nofun rfl
      fifo := rfl }
  · exact ⟨rfl, rfl, rfl, rfl, fun _ => rfl, rfl, rfl⟩
  · exact ⟨Nat.zero_le _, nofun⟩
  · intro l
    rw [lock?_registerLock]
    split
    · next hl => exact ⟨fun _ => hl, fun _ => rfl⟩
    · next hl => exact ⟨nofun, fun heq => absurd heq hl⟩
  · exact fun hheld => absurd rfl hheld

/-- A step of the agenda leads to a system that is tracked. -/
theorem step (h : Tracked w cfg sys c) (hreach : System.Reachable cfg sys)
    (hprimaries : 0 < cfg.primaries) (hsteps : 0 < cfg.stepsPerPrimary)
    (hstep : (w.agenda cfg).Step sys sys') : ∃ c', Tracked w cfg sys' c' := by
  have hinv := Invariant.of_reachable hreach
  obtain ⟨c', hfollows, hshadow⟩ := h.shadow.step hinv h.sound hstep
  have hsubmits := h.submits.step hinv hstep
  have hlisted : c'.listed ≤ w.size cfg := by
    have hle := hsubmits.le
    rw [length_units] at hle
    rw [hshadow.listed]
    split
    · exact hle
    · exact Nat.zero_le _
  obtain ⟨hsound, hcontention, honPlan⟩ :
      c'.Sound (w.agenda cfg).routine ∧ Contention w cfg c' ∧ OnPlan w cfg c' := by
    rcases hfollows with rfl | ⟨a, hfires⟩
    · exact ⟨h.sound, h.contention, h.onPlan⟩
    · exact ⟨h.sound.fires hfires,
        h.onPlan.fires h.contention h.sound hprimaries hsteps hfires hlisted⟩
  refine ⟨c', hshadow, hsound, hcontention, honPlan, hsubmits,
    fun l => hstep.lock?_isSome hinv l ▸ h.registered l, ?_⟩
  -- Every round has as many primaries as the one before.
  obtain ⟨m, hpermits, hm⟩ := hstep
  refine (System.Step.holdsAboveBound_or hreach ⟨_, m, hm⟩ h.held).resolve_right ?_
  rintro ⟨-, -, hgrows⟩
  rw [← h.shadow.mirrors.live, ← hshadow.mirrors.live, h.contention.live,
    hcontention.live] at hgrows
  exact Nat.lt_irrefl _ hgrows

/-- Every system that follows the agenda is tracked, and its rounds have primaries and steps. -/
theorem of_reaches (h : (w.agenda cfg).Reaches sys) :
    0 < cfg.primaries ∧ 0 < cfg.stepsPerPrimary ∧ ∃ c, Tracked w cfg sys c := by
  obtain ⟨first, hstart, hpath⟩ := h
  obtain ⟨hprimaries, hsteps, -⟩ := start_eq hstart
  refine ⟨hprimaries, hsteps, ?_⟩
  induction hpath with
  | refl => exact start hstart
  | tail hpath hstep ih =>
    obtain ⟨c, hc⟩ := ih
    exact hc.step (Agenda.Reaches.reachable ⟨first, hstart, hpath⟩) hprimaries hsteps hstep

/-! ### Where a run stops -/

section Stops

variable (hinv : Invariant sys) (hstops : (w.agenda cfg).Stops sys)

include hinv hstops

/-- A unit that has not retired is inside an operation, because it has one to call otherwise. -/
lemma call_of_stops (h : Tracked w cfg sys c) (halive : sys.state.isAlive t = true) :
    ∃ ph, sys.calls.get? (.unit t) = some ⟨ph.operation, .thread t ph⟩ := by
  cases hcall : sys.calls.get? (.unit t) with
  | some call =>
    have hsubmits := (h.shadow.units t call hcall).2
    obtain ⟨op, point⟩ := call
    cases point with
    | thread u ph =>
      obtain ⟨hu, rfl, -⟩ := (hcall ▸ hinv.placed (.unit t)).of_thread
      cases hu
      exact ⟨ph, rfl⟩
    | submission p =>
      have hplaced := hinv.placed (.unit t)
      rw [hcall] at hplaced
      exact absurd hplaced.of_submission.1 (Bool.eq_false_iff.mp hsubmits)
  | none =>
    exfalso
    have hactive := h.shadow.active_of_idle hinv hcall halive
    have htodo := (h.shadow.keeps t halive).todo
    rw [Shadow.hands_of_idle hcall, if_neg Bool.false_ne_true] at htodo
    obtain ⟨l, hl, hmissing⟩ := hstops.exists_missing_lock hcall halive
    -- The only lock that a unit uses exists.
    have hlock : l = lock := by
      rw [← htodo] at hl
      rcases h.contention.next?_cases (h.contention.lt_size h.sound hactive.listed)
        hactive.unlinked with ⟨-, hnext⟩ | ⟨-, -, ⟨-, hnext⟩ | ⟨-, hnil⟩⟩
      · rw [Desk.operation_of_next? hnext] at hl
        exact List.mem_singleton.mp hl
      · rw [Desk.operation_of_next? hnext] at hl
        exact List.mem_singleton.mp hl
      · rw [hnil] at hl
        cases hl
    rw [hlock, ← Option.not_isSome_iff_eq_none] at hmissing
    exact hmissing ((h.registered lock).mpr rfl)

/-- All units are listed, or there are enough of them for a round. -/
lemma listed_of_stops (h : Tracked w cfg sys c) (hattended : Attended sys)
    (hnames : cfg.namesWorkers = true) (hconfig : sys.config = cfg)
    (hbound : cfg.primaries ≤ cfg.admissionBound cfg.primaries + 1) :
    (c.listed = w.size cfg ∧ sys.state.nextThread.raw = w.size cfg ∧
      sys.calls.get? (.client 0) = none) ∨ cfg.primaries ≤ sys.state.threadList.length := by
  have hlisted := h.shadow.listed
  rw [hconfig, hnames, if_pos rfl] at hlisted
  have hclient := h.shadow.client
  cases hcall : sys.calls.get? (.client 0) with
  | none =>
    left
    rw [hcall] at hclient
    cases hclient with
    | outside hnext =>
      have hall : Agenda.submissions sys.returns = w.size cfg := by
        have hle := h.submits.le
        rw [length_units] at hle
        refine Nat.le_antisymm hle (Nat.le_of_not_lt fun hlt => ?_)
        -- The client has a unit left to submit.
        have hmove := hstops.silent (.client 0)
          (.submit (.scripted (Agenda.submissions sys.returns)))
          (by simp [Agenda.permits, Agenda.next?, length_units, hlt])
        simp only [System.move?, hstops.free, hcall, Option.isNone_none, Bool.true_and,
          System.isAlive, Operation.locks, List.all_nil, if_true] at hmove
        cases hmove
      exact ⟨hlisted.trans hall, hnext.trans hall, rfl⟩
  | some call =>
    right
    rw [hcall] at hclient
    -- Whoever submits a unit sleeps only because it is held back.
    cases hclient with
    | enrol hnext => cases hinv.intake_sleep hstops.stuck hcall
    | list hnext => cases hinv.intake_sleep hstops.stuck hcall
    | wait hnext =>
      cases hinv.intake_sleep hstops.stuck hcall with
      | sleepForAdmission _ _ _ r hr hadmitted =>
        have hplace : sys.submission? (.client 0) =
            some (.awaitAdmission ⟨Agenda.submissions sys.returns⟩
              (.scripted (Agenda.submissions sys.returns)) .answer) := by
          rw [System.submission?, hcall]
          rfl
        have hqueued := (hattended.waiting _ _ _ _ hplace).resolve_right
          (by simp [isAdmitted, hr, hadmitted])
        have hlong := h.held (List.ne_nil_of_mem hqueued)
        rw [← h.shadow.mirrors.live, h.contention.live] at hlong
        omega

/-- Before the first round a run stops only if nobody is listed. -/
lemma listed_eq_zero_of_stops (h : Tracked w cfg sys c) (hentering : sys.Entering)
    (hunbegun : Unbegun c) : c.listed = 0 := by
  by_contra hlisted
  have hmem : (⟨0⟩ : ThreadId) ∈ sys.state.threadList := by
    rw [← h.shadow.mirrors.roster, hunbegun.roster]
    exact List.mem_map_of_mem (List.mem_range'_1.mpr ⟨Nat.le_refl 0, by omega⟩)
  have halive : sys.state.isAlive ⟨0⟩ = true := by
    obtain ⟨r, hr, hstarted⟩ := hinv.sound.roster.exists_record hmem
    have hterminated := h.shadow.mirrors.retired ⟨0⟩
    rw [hunbegun.unretired, hasTerminated, hr] at hterminated
    simpa [isAlive, hr, hstarted] using hterminated.symm
  obtain ⟨ph, hcall⟩ := h.call_of_stops hinv hstops halive
  have hsleep := hinv.stretch_sleep hstops.stuck hcall
  have hround : sys.state.round = 0 := h.shadow.mirrors.round ▸ hunbegun.round
  rcases hentering hround ⟨0⟩ ph (by rw [System.phase?, hcall]; rfl) with ⟨p, rfl⟩ | rfl
  · cases hsleep
  · cases hsleep

/-- After that it stops only while the list is too short to fill the round. -/
lemma filling_of_stops (h : Tracked w cfg sys c) (hround : sys.state.round ≠ 0) :
    sys.state.primaries.length < cfg.primaries ∧
      ∃ plan, c.filling = some (sys.state.threadList.length, plan) := by
  have hlive : sys.state.live.primaries = cfg.primaries :=
    h.shadow.mirrors.live ▸ h.contention.live
  rcases Nat.lt_or_ge sys.state.primaries.length sys.state.live.primaries with hlen | hfull
  · obtain ⟨a, ha⟩ := hinv.fillers.exists_filler hround hlen
    obtain ⟨⟨index, plan⟩, ha⟩ := Option.isSome_iff_exists.mp ha
    obtain ⟨t, rfl, rfl, -⟩ := hinv.fill_index_of_stuck hstops.stuck ha
    exact ⟨hlive ▸ hlen, plan, (h.shadow.filling _).mpr ⟨_, ha⟩⟩
  · -- A primary that can make progress is inside an operation that it goes on with.
    obtain ⟨t, ht, hcan⟩ := hinv.exists_canProgress_of_stuck hstops.stuck hfull
    have halive := hinv.isAlive_of_canProgress ht hcan
    obtain ⟨ph, hcall⟩ := h.call_of_stops hinv hstops (t := t) halive
    have hbusy := (hinv.isBusyOutside_of_stuck hstops.stuck hfull ht hcan).phase?_eq_none
    rw [System.phase?, hcall] at hbusy
    cases hbusy

/-- A run stops only after everything on the plan happened. -/
theorem complete_of_stops (h : Tracked w cfg sys c) (hattended : Attended sys)
    (hentering : sys.Entering) (hnames : cfg.namesWorkers = true) (hconfig : sys.config = cfg)
    (hbound : cfg.primaries ≤ cfg.admissionBound cfg.primaries + 1)
    (hprimaries : 0 < cfg.primaries) :
    sys.state.nextThread.raw = w.size cfg ∧ sys.calls.get? (.client 0) = none ∧ c.roster = [] ∧
      c.turns = w.turns cfg ∧ c.starts = w.starts cfg ∧ c.desk.grants lock = w.grants cfg := by
  have hlisted := h.listed_of_stops hinv hstops hattended hnames hconfig hbound
  obtain ⟨hturns, hstarts, hgrants⟩ := h.onPlan.prefixes h.contention hprimaries
  cases h.onPlan with
  | unbegun hunbegun =>
    have hzero := h.listed_eq_zero_of_stops hinv hstops hentering hunbegun
    have hroster : c.roster = [] := by rw [hunbegun.roster, hzero]; rfl
    rw [← h.shadow.mirrors.roster, hroster] at hlisted
    obtain ⟨hsize, hnext, hcall⟩ := hlisted.resolve_right (Nat.not_le.mpr hprimaries)
    have hgroups : w.groups cfg.primaries = 0 :=
      (Nat.mul_eq_zero.mp (hsize.symm.trans hzero)).resolve_right (Nat.ne_of_gt hprimaries)
    have hnone : w.turns cfg = [] ∧ w.starts cfg = [] ∧ w.grants cfg = [] := by
      simp [turns, starts, grants, hgroups]
    rw [hnone.1] at hturns ⊢
    rw [hnone.2.1] at hstarts ⊢
    rw [hnone.2.2] at hgrants ⊢
    exact ⟨hnext, hcall, hroster, List.prefix_nil.mp hturns, List.prefix_nil.mp hstarts,
      List.prefix_nil.mp hgrants⟩
  | underway g q x hunderway =>
    have hround : sys.state.round ≠ 0 := by
      rw [← h.shadow.mirrors.round, hunderway.round]
      exact Nat.succ_ne_zero _
    obtain ⟨hlacks, plan, hfilling⟩ := h.filling_of_stops hinv hstops hround
    have hlength := (hunderway.filling _ _ hfilling).1
    rw [h.shadow.mirrors.primaries] at hlength
    obtain ⟨hsize, hnext, hcall⟩ := hlisted.resolve_right (by omega)
    -- Fewer units are left than a group has, so it is the one after the last.
    have hleft : sys.state.threadList.length = w.size cfg - g * cfg.primaries := by
      rw [← h.shadow.mirrors.roster, hunderway.roster, hsize, List.length_map, List.length_range']
    have hlast : w.groups cfg.primaries < g + 1 := by
      refine Nat.lt_of_mul_lt_mul_right (a := cfg.primaries) ?_
      rw [Nat.succ_mul]
      show w.size cfg < _
      omega
    obtain rfl : g = w.groups cfg.primaries :=
      Nat.le_antisymm (hunderway.group_le h.contention hprimaries) (Nat.le_of_lt_succ hlast)
    obtain ⟨rfl, rfl⟩ := hunderway.group.resolve_left (Nat.lt_irrefl _)
    have hroster : c.roster = [] := by
      rw [h.shadow.mirrors.roster, List.eq_nil_iff_length_eq_zero, hleft]
      exact Nat.sub_self _
    have hqueue : c.desk.queue lock = [] := List.eq_nil_iff_forall_not_mem.mpr fun t ht => by
      have hmem := h.sound.listed t (h.sound.seated t lock ((h.sound.desk.linked t lock).mp ht))
      rw [hroster] at hmem
      cases hmem
    have hfifo := h.contention.fifo
    have hall : c.turns = w.turns cfg := hunderway.turns.trans (w.turns_eq cfg hprimaries).symm
    rw [hqueue, List.append_nil, hall, ← grants_eq] at hfifo
    refine ⟨hnext, hcall, hroster, hall, ?_, hfifo⟩
    rw [hunderway.starts, hfilling, w.starts_eq cfg]
    rfl

end Stops

/-- When a round begins, nobody is in the queue of a lock. -/
lemma queue_eq_nil_of_begins (h : Tracked w cfg sys c) (hinv : Invariant sys)
    (hstep : (w.agenda cfg).Step sys sys') (hround : sys'.state.round ≠ sys.state.round)
    {l : LockId} {k : LockState} (hk : sys.state.lock? l = some k) : k.queue = [] := by
  obtain ⟨c', hfollows, hshadow⟩ := h.shadow.step hinv h.sound hstep
  rw [← h.shadow.mirrors.round, ← hshadow.mirrors.round] at hround
  rcases hfollows with rfl | ⟨a, hfires⟩
  · exact absurd rfl hround
  cases hfires with
  | list | look | fill => exact absurd rfl hround
  | act t e hdoes => exact absurd Course.round_act hround
  | next hfilling hstuck =>
    have hlinks := (h.onPlan.unlinked_of_next h.contention h.sound hfilling hstuck).2
    refine List.eq_nil_iff_forall_not_mem.mpr fun t ht => ?_
    have hlink := (hinv.sound.queues.linked t l).mpr ⟨k, hk, ht⟩
    rw [← h.shadow.mirrors.link, hlinks t] at hlink
    cases hlink

/-- Nobody but the client submits. -/
lemma submission?_eq_none (h : Tracked w cfg sys c) (hinv : Invariant sys)
    (hcall : sys.calls.get? (.client 0) = none) (a : Agent) : sys.submission? a = none := by
  rw [Option.eq_none_iff_forall_ne_some]
  intro p hp
  obtain ⟨⟨op, point⟩, hplace, hpoint⟩ := Option.bind_eq_some_iff.mp hp
  cases a with
  | client n =>
    cases n with
    | zero => exact nomatch hcall.symm.trans hplace
    | succ n => exact nomatch (h.shadow.clients n).symm.trans hplace
  | unit u =>
    cases point with
    | thread v ph => cases hpoint
    | submission q =>
      have hplaced := hinv.placed (.unit u)
      rw [hplace] at hplaced
      exact absurd hplaced.of_submission.1 (Bool.eq_false_iff.mp (h.shadow.units u _ hplace).2)

/-- Where a run stops all units retired, and nobody else did. -/
lemma terminated_iff_of_stops (h : Tracked w cfg sys c) (hreach : System.Reachable cfg sys)
    (hstops : (w.agenda cfg).Stops sys) (hconserved : Conserved sys)
    (hnext : sys.state.nextThread.raw = w.size cfg)
    (hcall : sys.calls.get? (.client 0) = none) (hlist : sys.state.threadList = []) :
    (∃ k, .terminated k t ∈ sys.state.events) ↔ t.raw < w.size cfg := by
  have hrecorded := Recorded.of_reachable hreach
  constructor
  · rintro ⟨k, hk⟩
    exact hnext ▸ (hrecorded.chronicle.buried k t hk).1
  · intro ht
    have hnone := h.submission?_eq_none hrecorded.invariant hcall
    obtain ⟨stage, hstage⟩ := hconserved.exists_isAt hrecorded.invariant.sound.roster hstops.free
      (hnext ▸ ht)
    cases stage with
    | waiting =>
      obtain ⟨-, a, work, k, ha⟩ := hrecorded.invariant.submitters.waiting t hstage
      exact nomatch (hnone a).symm.trans ha
    | admitted =>
      obtain ⟨-, a, work, k, ha⟩ := hstage
      exact nomatch (hnone a).symm.trans ha
    | listed =>
      have hmem : t ∈ sys.state.threadList := hstage
      rw [hlist] at hmem
      cases hmem
    | removed =>
      obtain ⟨k, -, hk⟩ := (hconserved.accounted.left t hstage.1).resolve_left hstage.2
      exact ⟨k, hk⟩

end Tracked

end Workload

end RoundScheduler
