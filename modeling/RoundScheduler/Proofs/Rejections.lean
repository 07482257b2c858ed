import RoundScheduler.Proofs.Requests

/-!
# Rejected operations leave the schedule alone

A thread that releases a lock which it does not own is told so, and one that asks for a lock which
it owns breaks off while it is inside the critical section; neither leaves anything behind but the
answer. A request for a round without primaries or without steps is refused late, after it slept,
closed rounds and started others, and took a turn. It cannot be told from a turn: a run in which
such requests are made goes through the same states as the run in which every one of them is
replaced by a turn, whoever else moves meanwhile.
-/

namespace RoundScheduler

open State

/-! ### Requests for empty rounds as turns -/

/-- Whether a request names a zero, so that it asks for an empty round whatever is staged. -/
def Request.isEmpty : Request → Bool
  | both p s => p = 0 || s = 0
  | primaries n | steps n => n = 0

/-- A purpose, with a request for an empty round replaced by a turn. -/
def Purpose.asTurn : Purpose → Purpose
  | reconfigure r => if r.isEmpty then turn else reconfigure r
  | p => p

/-- What is done after a look at the round, with a request for an empty round replaced by a turn. -/
def AfterCheck.asTurn : AfterCheck → AfterCheck
  | awaitRoundEnd p => awaitRoundEnd p.asTurn
  | awaitTurn p => awaitTurn p.asTurn
  | k => k

/-- What is done after a fill, with a request for an empty round replaced by a turn. -/
def AfterFill.asTurn : AfterFill → AfterFill
  | takeStep p => takeStep p.asTurn
  | recheck k => recheck k.asTurn
  | k => k

/-- A place, with a request for an empty round replaced by a turn. -/
def Phase.asTurn : Phase → Phase
  | enter p => enter p.asTurn
  | awaitPrimary p => awaitPrimary p.asTurn
  | awaitRoundEnd p => awaitRoundEnd p.asTurn
  | awaitTurn p => awaitTurn p.asTurn
  | check k => check k.asTurn
  | fill index plan k => fill index plan k.asTurn
  | ph => ph

/-- A place of an agent, with a request for an empty round replaced by a turn. -/
def Point.asTurn : Point → Point
  | thread me ph => thread me ph.asTurn
  | p => p

/-- An operation, with a request for an empty round replaced by a turn. -/
def Operation.asTurn : Operation → Operation
  | reconfigure r => if r.isEmpty then turn else reconfigure r
  | op => op

/-- An answer, with the refusal of a configuration replaced by the answer to a turn. -/
def Reply.asTurn : Reply → Reply
  | refused (.invalidConfiguration _) => done
  | r => r

/-- An outcome, with a request for an empty round replaced by a turn. -/
def Outcome.asTurn : Outcome → Outcome
  | sleep => sleep
  | goto s p => goto s p.asTurn
  | pause s p => pause s p.asTurn
  | reply s r => reply s r.asTurn

/-- A call, with a request for an empty round replaced by a turn. -/
def Call.asTurn (call : Call) : Call := ⟨call.operation.asTurn, call.point.asTurn⟩

/-- A return, with a request for an empty round replaced by a turn. -/
def Return.asTurn (r : Return) : Return := ⟨r.agent, r.operation.asTurn, r.reply.asTurn⟩

/-- A move, with a request for an empty round replaced by a turn. -/
def Move.asTurn : Move → Move
  | call a op => call a op.asTurn
  | m => m

/-- A system, with every request for an empty round replaced by a turn. -/
def System.asTurns (sys : System) : System :=
  { sys with
    calls := sys.calls.map fun _ call => call.asTurn
    returns := sys.returns.map Return.asTurn }

/-! ### Places -/

section Places

variable {s : State} {me : ThreadId} {eligible : ThreadId → Bool}

/-- A choice commutes with the replacement if both alternatives do. -/
lemma Outcome.ite_asTurn {p : Prop} [Decidable p] {o o₁ o' o₁' : Outcome} (ho : o' = o.asTurn)
    (ho₁ : o₁' = o₁.asTurn) : (if p then o' else o₁') = (if p then o else o₁).asTurn := by
  split
  · exact ho
  · exact ho₁

namespace State

/-- A record is looked up for a turn as for a refused request. -/
lemma withRecord_asTurn {t : ThreadId} {k k' : ThreadRecord → Outcome}
    (h : ∀ r, k' r = (k r).asTurn) : s.withRecord t k' = (s.withRecord t k).asTurn := by
  unfold withRecord
  cases s.record? t with
  | none => rfl
  | some r => exact h r

/-- A slot is looked up for a turn as for a refused request. -/
lemma withSlot_asTurn {t : ThreadId} {k k' : Slot → Outcome}
    (h : ∀ slot, k' slot = (k slot).asTurn) : s.withSlot t k' = (s.withSlot t k).asTurn := by
  unfold withSlot
  cases s.slotOf? t with
  | none => rfl
  | some slot => exact h slot

/-- A lock is looked up for a turn as for a refused request. -/
lemma withLock_asTurn {l : LockId} {k k' : LockState → Outcome}
    (h : ∀ lock, k' lock = (k lock).asTurn) : s.withLock l k' = (s.withLock l k).asTurn := by
  unfold withLock
  cases s.lock? l with
  | none => rfl
  | some lock => exact h lock

/-- Records are required for a turn as for a refused request. -/
lemma requiring_asTurn {ts : List ThreadId} {o o' : Outcome} (h : o' = o.asTurn) :
    s.requiring ts o' = (s.requiring ts o).asTurn := by
  unfold requiring
  cases s.unrecorded? ts with
  | none => exact h
  | some t => rfl

/-- The next round is started on the way to a turn as to a refused request. -/
lemma startRound_asTurn {k : AfterFill} :
    s.startRound me k.asTurn = (s.startRound me k).asTurn := requiring_asTurn rfl

/-- A thread goes on after its look at the round with a turn as with a refused request. -/
lemma proceed_asTurn {k : AfterCheck} : s.proceed me k.asTurn = (s.proceed me k).asTurn := by
  cases k <;> rfl

/-- The end of the round is looked at for a turn as for a refused request. -/
lemma checkRound_asTurn {k : AfterCheck} :
    s.checkRound me k.asTurn = (s.checkRound me k).asTurn :=
  Outcome.ite_asTurn proceed_asTurn
    (requiring_asTurn (Outcome.ite_asTurn proceed_asTurn (startRound_asTurn (k := .recheck k))))

/-- A round is filled on the way to a turn as to a refused request. -/
lemma fillRound_asTurn {index : Nat} {plan : RoundConfig} {k : AfterFill} :
    s.fillRound eligible me index plan k.asTurn =
      (s.fillRound eligible me index plan k).asTurn := by
  refine Outcome.ite_asTurn ?_ (by cases k <;> rfl)
  cases s.threadList[index]? with
  | none => rfl
  | some t => exact withRecord_asTurn fun r => Outcome.ite_asTurn rfl rfl

/-- A request for an empty round is refused, and leaves the state as it is. -/
lemma stage_of_isEmpty (hstaged : s.staged.primaries ≠ 0) {r : Request} (hr : r.isEmpty = true) :
    ∃ e, s.stage me r = .reply s (.refused (.ofEmptyRound e)) := by
  have hdivisor : (r.keepsSteps && decide (s.staged.primaries = 0)) = false := by simp [hstaged]
  have hzero : (r.resolve s.staged).1 = 0 ∨ (r.resolve s.staged).2 = 0 := by
    cases r <;> simp_all [Request.isEmpty, Request.resolve]
  simp only [stage, hdivisor, Bool.false_eq_true, if_false]
  rcases RoundConfig.roundRobin_cases (r.resolve s.staged).1 (r.resolve s.staged).2 with
    ⟨hp, hsteps, -⟩ | ⟨-, heq⟩ | ⟨-, -, heq⟩ | ⟨hlimit, hsteps, -⟩
  · omega
  · exact ⟨.noPrimaries, by rw [heq]⟩
  · exact ⟨.noSteps, by rw [heq]⟩
  · have hpositive : 0 < Word.rowLimit := Nat.two_pow_pos 60
    omega

/-- Any other request is served. -/
lemma stage_asTurn (hstaged : s.staged.IsRoundRobin) {r : Request} (hr : ¬ r.isEmpty = true) :
    s.stage me r = (s.stage me r).asTurn := by
  have hprimaries := Nat.pos_iff_ne_zero.mp hstaged.1
  have hsteps := Nat.pos_iff_ne_zero.mp hstaged.eq_passes.2
  have hnonzero : (r.resolve s.staged).1 ≠ 0 ∧ (r.resolve s.staged).2 ≠ 0 := by
    cases r <;> simp_all [Request.isEmpty, Request.resolve]
  refine Outcome.ite_asTurn rfl ?_
  dsimp only
  rcases RoundConfig.roundRobin_cases (r.resolve s.staged).1 (r.resolve s.staged).2 with
    ⟨-, -, -, heq⟩ | ⟨hzero, -⟩ | ⟨-, hzero, -⟩ | ⟨-, -, heq⟩
  · rw [heq]
    rfl
  · exact absurd hzero hnonzero.1
  · exact absurd hzero hnonzero.2
  · rw [heq]
    rfl

/-- The step of a request for an empty round is used like one taken for its own sake. -/
lemma serve_asTurn (hstaged : s.staged.IsRoundRobin) {p : Purpose} :
    s.serve me p.asTurn = (s.serve me p).asTurn := by
  cases p with
  | turn => rfl
  | lock l => exact withLock_asTurn fun _ => Outcome.ite_asTurn rfl rfl
  | reconfigure r =>
    by_cases hr : r.isEmpty = true
    · obtain ⟨e, he⟩ : ∃ e, s.stage me r = .reply s (.refused (.ofEmptyRound e)) :=
        stage_of_isEmpty (Nat.pos_iff_ne_zero.mp hstaged.1) hr
      rw [Purpose.asTurn, if_pos hr, serve, serve, he]
      rfl
    · rw [Purpose.asTurn, if_neg hr]
      exact stage_asTurn hstaged hr

/-- A refused request takes the step of a turn, and leaves nothing behind but its answer. -/
lemma attempt_asTurn (hstaged : s.staged.IsRoundRobin) {slot : Slot} {p : Purpose} :
    s.attempt me slot p.asTurn = (s.attempt me slot p).asTurn := by
  have hafter : (s.takeTurn me slot).wakeHead.staged.IsRoundRobin :=
    (staged_afterTurn (s := s) (t := me) slot).symm ▸ hstaged
  exact Outcome.ite_asTurn rfl
    (Outcome.ite_asTurn (requiring_asTurn (serve_asTurn hafter)) rfl)

end State

/-- At every place the same happens as if requests for empty rounds were turns. -/
lemma Phase.step_asTurn (hstaged : s.staged.IsRoundRobin) {ph : Phase} :
    ph.asTurn.step eligible me s = (ph.step eligible me s).asTurn := by
  cases ph with
  | enter p => exact Outcome.ite_asTurn (startRound_asTurn (k := .takeStep p)) rfl
  | awaitPrimary p =>
    exact withRecord_asTurn fun r =>
      Outcome.ite_asTurn (withSlot_asTurn fun slot => attempt_asTurn hstaged) rfl
  | awaitRoundEnd p | awaitTurn p => exact withRecord_asTurn fun r => Outcome.ite_asTurn rfl rfl
  | awaitHandOver l =>
    exact withLock_asTurn fun lock => Outcome.ite_asTurn rfl
      (withRecord_asTurn fun r => Outcome.ite_asTurn rfl rfl)
  | check k => exact checkRound_asTurn
  | fill index plan k => exact fillRound_asTurn
  | enterRetirement => exact Outcome.ite_asTurn (startRound_asTurn (k := .retire)) rfl
  | awaitRetirement =>
    exact withRecord_asTurn fun r =>
      Outcome.ite_asTurn (withSlot_asTurn fun slot => requiring_asTurn rfl) rfl

/-- Submitters make no requests. -/
lemma Submission.step_asTurn {c : Config} {p : Submission} : p.step c s = (p.step c s).asTurn := by
  cases p with
  | enrol w k => exact Outcome.ite_asTurn rfl rfl
  | awaitAdmission t w k => exact withRecord_asTurn fun r => Outcome.ite_asTurn rfl rfl
  | list t w k =>
    refine Outcome.ite_asTurn (requiring_asTurn ?_) rfl
    cases k with
    | more left first => cases left <;> rfl
    | _ => rfl
  | count first => exact requiring_asTurn (by cases s.missingPrimaries <;> rfl)

/-- At every place the same happens as if requests for empty rounds were turns. -/
lemma Point.step_asTurn (hstaged : s.staged.IsRoundRobin) {c : Config} {p : Point} :
    p.asTurn.step c eligible s = (p.step c eligible s).asTurn := by
  cases p with
  | thread me ph => exact Phase.step_asTurn hstaged
  | submission p => exact Submission.step_asTurn

/-- Every operation begins as if requests for empty rounds were turns. -/
lemma Operation.start?_asTurn {a : Agent} {op : Operation} :
    op.asTurn.start? s a = (op.start? s a).map Outcome.asTurn := by
  cases op with
  | submit w | fill w => rfl
  | owner l => exact congrArg some (withLock_asTurn fun _ => rfl)
  | unqueue l t =>
    exact congrArg some (Outcome.ite_asTurn rfl (withLock_asTurn fun _ => rfl))
  | turn | retire => cases a <;> rfl
  | reconfigure r =>
    unfold Operation.asTurn
    cases a <;> by_cases hr : r.isEmpty = true <;>
      simp [hr, start?, Outcome.asTurn, Point.asTurn, Phase.asTurn, Purpose.asTurn]
  | lock l =>
    cases a with
    | unit t => exact congrArg some (withLock_asTurn fun _ => Outcome.ite_asTurn rfl rfl)
    | client n => rfl
  | unlock l =>
    cases a with
    | unit t =>
      refine congrArg some (withLock_asTurn fun lock => Outcome.ite_asTurn rfl ?_)
      cases lock.queue with
      | nil => rfl
      | cons next rest => exact requiring_asTurn rfl
    | client n => rfl

end Places

/-! ### Moves -/

namespace Table

variable {κ ν : Type} [DecidableEq κ]

/-- A value may be changed before or after it is assigned. -/
lemma map_assign (f : κ → ν → ν) (k : κ) (v : ν) (es : List (κ × ν)) :
    (assign k v es).map (fun (k, v) => (k, f k v)) =
      assign k (f k v) (es.map fun (k, v) => (k, f k v)) := by
  induction es with
  | nil => rfl
  | cons e es ih => grind [assign]

/-- A value may be changed before or after it is set. -/
lemma map_set (t : Table κ ν) (f : κ → ν → ν) (k : κ) (v : ν) :
    (t.set k v).map f = (t.map f).set k (f k v) :=
  congrArg Table.mk (map_assign f k v t.entries)

/-- The other values may be changed before or after one is erased. -/
lemma map_erase (t : Table κ ν) (f : κ → ν → ν) (k : κ) :
    (t.erase k).map f = (t.map f).erase k := by
  simp [erase, filter, map, List.filter_map, Function.comp_def]

/-- Nothing is lost without a key that is not there. -/
lemma erase_of_get?_eq_none {t : Table κ ν} {k : κ} (h : t.get? k = none) : t.erase k = t := by
  obtain ⟨es⟩ := t
  refine congrArg Table.mk (List.filter_eq_self.mpr fun e he => decide_eq_true ?_)
  rintro rfl
  induction es with
  | nil => cases he
  | cons e' es ih => grind [get?, lookup]

end Table

namespace System

variable {sys : System} {eligible : ThreadId → Bool}

/-- A move for a refused request is the move for a turn. -/
lemma apply_asTurns {a : Agent} {op : Operation} {o : Outcome} :
    (sys.apply a op o).asTurns = sys.asTurns.apply a op.asTurn o.asTurn := by
  cases o with
  | sleep => rfl
  | goto s p | pause s p =>
    simp only [apply, asTurns, Outcome.asTurn, Table.map_set]
    rfl
  | reply s r =>
    simp only [apply, asTurns, Outcome.asTurn, Table.map_erase]
    rfl

/-- The calls are those of turns, one by one. -/
lemma get?_calls_asTurns (a : Agent) :
    sys.asTurns.calls.get? a = (sys.calls.get? a).map Call.asTurn := Table.get?_map _ _ _

/-- What becomes of a call is what becomes of the turn. -/
lemma outcome_asTurn (hstaged : sys.state.staged.IsRoundRobin) {call : Call} :
    sys.asTurns.outcome eligible call.asTurn = (sys.outcome eligible call).asTurn :=
  Point.step_asTurn hstaged

/-- Requests use no locks. -/
lemma locks_asTurn (op : Operation) : op.asTurn.locks = op.locks := by
  cases op with
  | reconfigure r =>
    rw [Operation.asTurn]
    split <;> rfl
  | _ => rfl

/-- Refused requests use no lock. -/
lemma uses_asTurns {l : LockId} : sys.asTurns.uses l = sys.uses l := by
  simp [uses, asTurns, Table.map, List.any_map, Function.comp_def, Call.asTurn, locks_asTurn]

/-- Every move does the same as if requests for empty rounds were turns. -/
theorem move?_asTurn (hstaged : sys.state.staged.IsRoundRobin) {m : Move} :
    sys.asTurns.move? eligible m.asTurn = (sys.move? eligible m).map asTurns := by
  have hguard : ∀ {p : Bool} {next next' : Option System}, next' = next.map asTurns →
      (if p then next' else none) = (if p then next else none).map asTurns := by
    rintro p next next' rfl
    cases p <;> rfl
  cases m with
  | call a op =>
    have hstart : (op.asTurn.start? sys.state a).map (sys.asTurns.apply a op.asTurn) =
        ((op.start? sys.state a).map (sys.apply a op)).map asTurns := by
      rw [Operation.start?_asTurn, Option.map_map, Option.map_map]
      exact congrArg (fun f => Option.map f _) (funext fun o => apply_asTurns.symm)
    simp only [Move.asTurn, move?, recover_acquire, get?_calls_asTurns, Option.isNone_map,
      locks_asTurn]
    exact hguard hstart
  | advance =>
    have hinside : sys.asTurns.inside = sys.inside := rfl
    simp only [Move.asTurn, move?, hinside]
    cases sys.inside with
    | none => rfl
    | some a =>
      simp only [get?_calls_asTurns, Option.map_map]
      refine congrArg (fun f => Option.map f _) (funext fun call => ?_)
      simp only [Function.comp_apply, outcome_asTurn hstaged, apply_asTurns]
      rfl
  | enter a =>
    simp only [Move.asTurn, move?, recover_acquire, get?_calls_asTurns, Option.isSome_map]
    exact hguard rfl
  | newLock =>
    simp only [Move.asTurn, move?, recover_acquire]
    exact hguard rfl
  | dropLock l =>
    simp only [Move.asTurn, move?, recover_acquire, uses_asTurns]
    exact hguard rfl

/-! ### Runs -/

/-- The system after some moves, each under its own rule of eligibility, if they are possible. -/
def perform? (sys : System) : List ((ThreadId → Bool) × Move) → Option System
  | [] => some sys
  | (eligible, m) :: ms => (sys.move? eligible m).bind fun next => next.perform? ms

variable {ms ms' : List ((ThreadId → Bool) × Move)} {sys' next last : System}

/-- Every run goes through the same states as if requests for empty rounds were turns. -/
theorem perform?_asTurn (h : Invariant sys) :
    sys.asTurns.perform? (ms.map (Prod.map id Move.asTurn)) = (sys.perform? ms).map asTurns := by
  induction ms generalizing sys with
  | nil => rfl
  | cons m ms ih =>
    obtain ⟨eligible, m⟩ := m
    simp only [List.map_cons, Prod.map_apply, id_eq, perform?, move?_asTurn h.sound.seating.staged]
    cases hm : sys.move? eligible m with
    | none => rfl
    | some next => exact ih (h.step ⟨eligible, m, hm⟩)

/-- Runs keep the invariant. -/
lemma invariant_of_perform? (h : Invariant sys)
    (hlast : sys.perform? ms = some last) : Invariant last := by
  induction ms generalizing sys with
  | nil =>
    cases hlast
    exact h
  | cons m ms ih =>
    obtain ⟨next, hm, hms⟩ := Option.bind_eq_some_iff.mp hlast
    exact ih (h.step ⟨m.1, m.2, hm⟩) hms

/-- Two systems that differ at most in that callers in one of them take turns while in the other
they ask for empty rounds. -/
structure Alike (sys sys' : System) : Prop where
  state : sys'.state = sys.state
  inside : sys'.inside = sys.inside
  /-- Everybody stands at the same place. -/
  calls : ∀ a, (sys'.calls.get? a).map Call.asTurn = (sys.calls.get? a).map Call.asTurn
  /-- The same operations have returned. -/
  returns : sys'.returns.map Return.asTurn = sys.returns.map Return.asTurn
  /-- The same callers sleep. -/
  waits : ∀ eligible a, sys'.canProceed eligible a = sys.canProceed eligible a

/-- Nobody falls asleep or goes on because its request is replaced by a turn. -/
lemma canProceed_asTurns (hstaged : sys.state.staged.IsRoundRobin) (a : Agent) :
    sys.asTurns.canProceed eligible a = sys.canProceed eligible a := by
  unfold canProceed
  rw [get?_calls_asTurns]
  cases sys.calls.get? a with
  | none => rfl
  | some call =>
    simp only [Option.map_some, outcome_asTurn hstaged]
    cases sys.outcome eligible call <;> rfl

/-- Systems that are the same with turns for refused requests are alike. -/
lemma Alike.of_asTurns_eq (heq : sys'.asTurns = sys.asTurns)
    (hstaged : sys.state.staged.IsRoundRobin) : sys.Alike sys' := by
  have hstate : sys'.state = sys.state := congrArg (·.state) heq
  refine ⟨hstate, congrArg (·.inside) heq, fun a => ?_, congrArg (·.returns) heq,
    fun eligible a => ?_⟩
  · rw [← get?_calls_asTurns, ← get?_calls_asTurns, heq]
  · rw [← canProceed_asTurns (hstate ▸ hstaged), ← canProceed_asTurns hstaged, heq]

/-- Runs that differ at most in that requests for empty rounds are replaced by turns or turns by
such requests are possible both or neither, and lead to the same state. -/
lemma exists_alike (h : Invariant sys)
    (hms : ms'.map (Prod.map id Move.asTurn) = ms.map (Prod.map id Move.asTurn))
    (hlast : sys.perform? ms = some last) :
    ∃ last', sys.perform? ms' = some last' ∧ last.Alike last' := by
  have hsame : (sys.perform? ms').map asTurns = (sys.perform? ms).map asTurns := by
    rw [← perform?_asTurn h, ← perform?_asTurn h, hms]
  rw [hlast] at hsame
  obtain ⟨last', hlast', heq⟩ := Option.map_eq_some_iff.mp hsame
  exact ⟨last', hlast', .of_asTurns_eq heq (invariant_of_perform? h hlast).sound.seating.staged⟩

/-! ### Answers -/

/-- The system after one more operation returned, without any other change. -/
def answer (sys : System) (ret : Return) : System := { sys with returns := ret :: sys.returns }

/-- Moves do not depend on the answers given before, not even on whether somebody broke off and
poisoned the mutex. -/
lemma move?_returns {m : Move} (hm : sys.move? eligible m = some next) :
    ∃ new, next.returns = new ++ sys.returns ∧ ∀ rs : List Return,
      move? { sys with returns := rs } eligible m = some { next with returns := new ++ rs } := by
  have happly : ∀ (a : Agent) (op : Operation) (o : Outcome) (rs : List Return),
      apply { sys with returns := rs } a op o =
        { sys.apply a op o with returns := o.returns a op ++ rs } := by
    intro a op o rs
    cases o <;> rfl
  cases m with
  | call a op =>
    obtain ⟨hguard, o, ho, rfl⟩ := move?_call_eq_some_iff.mp hm
    exact ⟨_, returns_apply sys a op o, fun rs =>
      move?_call_eq_some_iff.mpr ⟨hguard, o, ho, happly a op o rs⟩⟩
  | advance =>
    cases hinside : sys.inside with
    | none => simp [move?, hinside] at hm
    | some a =>
      simp only [move?, hinside] at hm
      obtain ⟨call, hcall, rfl⟩ := Option.map_eq_some_iff.mp hm
      refine ⟨_, returns_apply sys a call.operation _, fun rs => ?_⟩
      simp only [move?]
      exact Option.map_eq_some_iff.mpr ⟨call, hcall, happly a call.operation _ rs⟩
  | enter a =>
    obtain ⟨hguard, rfl⟩ := move?_enter_eq_some_iff.mp hm
    exact ⟨[], rfl, fun rs => move?_enter_eq_some_iff.mpr ⟨hguard, rfl⟩⟩
  | newLock =>
    obtain ⟨hguard, rfl⟩ := move?_newLock_eq_some_iff.mp hm
    exact ⟨[], rfl, fun rs => move?_newLock_eq_some_iff.mpr ⟨hguard, rfl⟩⟩
  | dropLock l =>
    obtain ⟨hguard, rfl⟩ := move?_dropLock_eq_some_iff.mp hm
    exact ⟨[], rfl, fun rs => move?_dropLock_eq_some_iff.mpr ⟨hguard, rfl⟩⟩

/-- Runs do not depend on the answers given before. -/
lemma perform?_returns (h : sys.perform? ms = some last) :
    ∃ new, last.returns = new ++ sys.returns ∧ ∀ rs : List Return,
      perform? { sys with returns := rs } ms = some { last with returns := new ++ rs } := by
  induction ms generalizing sys with
  | nil =>
    cases h
    exact ⟨[], rfl, fun _ => rfl⟩
  | cons m ms ih =>
    obtain ⟨next, hm, hms⟩ := Option.bind_eq_some_iff.mp h
    obtain ⟨new, hnew, hmove⟩ := move?_returns hm
    obtain ⟨later, hlater, hrun⟩ := ih hms
    refine ⟨later ++ new, by rw [hlater, hnew, List.append_assoc], fun rs => ?_⟩
    rw [perform?, hmove, List.append_assoc]
    exact hrun (new ++ rs)

/-- A call that is answered at once without a change leaves the answer. -/
lemma move?_call_of_reply {a : Agent} {op : Operation} {r : Reply} (hinside : sys.inside = none)
    (hidle : sys.calls.get? a = none) (halive : sys.isAlive a = true)
    (hlocks : op.locks.all sys.state.locks.contains = true)
    (hstart : op.start? sys.state a = some (.reply sys.state r)) :
    sys.move? eligible (.call a op) = some (sys.answer ⟨a, op, r⟩) := by
  have hmove : sys.move? eligible (.call a op) =
      some (sys.apply a op (.reply sys.state r)) := by
    simp [move?, hinside, hidle, halive, hlocks, hstart]
  rw [hmove, apply, Table.erase_of_get?_eq_none hidle, ← hinside]
  rfl

end System

/-! ### Requests that are refused -/

/-- On top of a round with primaries and steps, a request asks for an empty round only if it names a
zero. -/
lemma Request.isEmpty_iff {numbers : Nat × Nat} (h : 1 ≤ numbers.1 ∧ 1 ≤ numbers.2) (r : Request) :
    r.isEmpty = true ↔ (r.on numbers).1 = 0 ∨ (r.on numbers).2 = 0 := by
  cases r <;> simp [isEmpty, on] <;> omega

/-- The answers that refuse a request are those to requests for empty rounds. -/
lemma Request.Answered.refused_iff {numbers : Nat × Nat} {r : Request} {reply : Reply}
    (h : r.Answered numbers reply) (hnumbers : 1 ≤ numbers.1 ∧ 1 ≤ numbers.2) :
    (∃ reason, reply = .refused (.invalidConfiguration reason)) ↔ r.isEmpty = true := by
  rw [Request.isEmpty_iff hnumbers]
  cases h with
  | staged hp hlimit hs => simp [hp, hs]
  | noPrimaries hp => simp [hp, SchedulerError.ofEmptyRound]
  | noSteps hp hs => simp [hs, SchedulerError.ofEmptyRound]
  | overflowed hlimit hs =>
    have hpositive : 0 < Word.rowLimit := Nat.two_pow_pos 60
    simp only [reduceCtorEq, exists_false, false_iff, not_or]
    exact ⟨by omega, hs⟩

/-- Releasing a lock that the thread does not own, and asking for a lock that it owns, change
nothing but that there is one more answer; the second poisons the mutex. What happens later is the
same as without that answer. A request for a configuration is refused exactly if it names a zero,
whatever was staged before, and such requests cannot be told from turns: two runs that differ at
most in that requests of this kind are replaced by turns, or turns by such requests, are possible
both or neither, and at any point the state, the places of all callers, who sleeps and what was
answered are the same. -/
theorem rejections_leave_schedule {c : Config} {sys : System} (h : System.Reachable c sys) :
    (∀ eligible t l k, sys.inside = none → sys.calls.get? (.unit t) = none →
      sys.isAlive (.unit t) = true → sys.state.lock? l = some k →
      (k.owner ≠ some t → sys.move? eligible (.call (.unit t) (.unlock l)) =
        some (sys.answer ⟨.unit t, .unlock l, .refused (.notOwner l t k.owner)⟩)) ∧
      (k.owner = some t → sys.move? eligible (.call (.unit t) (.lock l)) =
        some (sys.answer ⟨.unit t, .lock l, .panicked (.reacquired t l)⟩) ∧
        (sys.answer ⟨.unit t, .lock l, .panicked (.reacquired t l)⟩).isPoisoned = true)) ∧
    (∀ ret ms, (∀ last, sys.perform? ms = some last →
        ∃ new, last.returns = new ++ sys.returns ∧
          (sys.answer ret).perform? ms = some { last with returns := new ++ ret :: sys.returns }) ∧
      (sys.perform? ms = none → (sys.answer ret).perform? ms = none)) ∧
    (∀ next a r reply, System.Step sys next →
      next.returns = ⟨a, .reconfigure r, reply⟩ :: sys.returns →
        ((∃ reason, reply = .refused (.invalidConfiguration reason)) ↔ r.isEmpty = true)) ∧
    ∀ ms ms', ms'.map (Prod.map id Move.asTurn) = ms.map (Prod.map id Move.asTurn) →
      ∀ last, sys.perform? ms = some last →
        ∃ last', sys.perform? ms' = some last' ∧ last.Alike last' := by
  have hinv := Invariant.of_reachable h
  refine ⟨fun eligible t l k hinside hidle halive hk => ?_,
    fun ret ms => ⟨fun last hlast => ?_, ?_⟩,
    fun next a r reply hs hreturns => ?_, fun ms ms' hms last => System.exists_alike hinv hms⟩
  · have hregistered : [l].all sys.state.locks.contains = true := by
      have hsome : sys.state.locks.get? l = some k := hk
      simp [Table.contains, hsome]
    refine ⟨fun howner => ?_, fun howner => ⟨?_, by simp [System.isPoisoned, System.answer]⟩⟩
    · exact System.move?_call_of_reply hinside hidle halive hregistered
        (by simp [Operation.start?, State.unlock, State.withLock, hk, howner])
    · exact System.move?_call_of_reply hinside hidle halive hregistered
        (by simp [Operation.start?, State.lock, State.withLock, hk, howner])
  · obtain ⟨new, hnew, hrun⟩ := System.perform?_returns hlast
    exact ⟨new, hnew, hrun _⟩
  · intro hnone
    cases hrun : (sys.answer ret).perform? ms with
    | none => rfl
    | some last =>
      -- Then the run would be possible without the answer as well.
      obtain ⟨new, -, hrun'⟩ := System.perform?_returns hrun
      exact absurd (hnone.symm.trans (hrun' sys.returns)) (Option.some_ne_none _).symm
  · have hanswered := (Heeded.of_reachable (h.step hs)).answers [] _ _ r hreturns rfl
    exact hanswered.refused_iff (Heeded.of_reachable h).positive

/-! ### A lock that is asked for again, and requests that wait -/

/-- The moves by which the first of two threads acquires the only lock. -/
def firstOwns : List Move :=
  [.newLock, .call (.client 0) (.submit .noop), .advance, .advance,
    .call (.client 0) (.submit .noop), .advance, .advance,
    .call (.unit ⟨0⟩) (.lock ⟨0⟩), .advance, .advance, .advance, .advance, .advance]

/-- The moves by which the second thread performs two operations, of which the second has to wait
for the next round, which the first thread starts by a turn. -/
def twoSteps (op op' : Operation) : List ((ThreadId → Bool) × Move) :=
  List.map (fun m => (fun _ => true, m))
    [.call (.unit ⟨1⟩) op, .advance, .advance,
      .call (.unit ⟨1⟩) op', .advance, .advance, .advance, .advance,
      .call (.unit ⟨0⟩) .turn, .advance, .advance, .advance, .advance, .advance, .advance,
      .advance, .advance, .advance,
      .enter (.unit ⟨1⟩), .advance, .advance]

/-- Two refused requests of the second thread leave the same as two turns, and both are possible
after the first thread asked again for the lock that it owns. -/
theorem rejections_leave_schedule_twoSteps :
    ∃ sys last last',
      System.run? { primaries := 2 } (fun _ => true) firstOwns = some sys ∧
      sys.move? (fun _ => true) (.call (.unit ⟨1⟩) (.unlock ⟨0⟩)) =
        some (sys.answer ⟨.unit ⟨1⟩, .unlock ⟨0⟩, .refused (.notOwner ⟨0⟩ ⟨1⟩ (some ⟨0⟩))⟩) ∧
      sys.move? (fun _ => true) (.call (.unit ⟨0⟩) (.lock ⟨0⟩)) =
        some (sys.answer ⟨.unit ⟨0⟩, .lock ⟨0⟩, .panicked (.reacquired ⟨0⟩ ⟨0⟩)⟩) ∧
      sys.perform? (twoSteps .turn .turn) = some last ∧ last.state.round = 2 ∧
      (∃ new, (sys.answer ⟨.unit ⟨0⟩, .lock ⟨0⟩, .panicked (.reacquired ⟨0⟩ ⟨0⟩)⟩).perform?
        (twoSteps .turn .turn) = some { last with returns := new }) ∧
      sys.perform? (twoSteps (.reconfigure (.primaries 0)) (.reconfigure (.both 5 0))) =
        some last' ∧ last.Alike last' := by
  obtain ⟨sys, k, last, hrun, hinside, hidle, halive, hk, howner, hlast, hround⟩ :
      ∃ sys k last, System.run? { primaries := 2 } (fun _ => true) firstOwns = some sys ∧
      sys.inside = none ∧
      (sys.calls.get? (.unit ⟨0⟩) = none ∧ sys.calls.get? (.unit ⟨1⟩) = none) ∧
      (sys.isAlive (.unit ⟨0⟩) = true ∧ sys.isAlive (.unit ⟨1⟩) = true) ∧
      sys.state.lock? ⟨0⟩ = some k ∧ k.owner = some ⟨0⟩ ∧
      sys.perform? (twoSteps .turn .turn) = some last ∧ last.state.round = 2 :=
    ⟨_, _, _, rfl, rfl, ⟨rfl, rfl⟩, ⟨rfl, rfl⟩, rfl, rfl, rfl, rfl⟩
  obtain ⟨hlocks, hlater, -, halike⟩ :=
    rejections_leave_schedule (System.reachable_of_run? hrun)
  have hunlock := (hlocks (fun _ => true) ⟨1⟩ ⟨0⟩ k hinside hidle.2 halive.2 hk).1
    (by simp [howner])
  have hrelock := (hlocks (fun _ => true) ⟨0⟩ ⟨0⟩ k hinside hidle.1 halive.1 hk).2 howner
  obtain ⟨new, -, hcontinued⟩ := (hlater _ _).1 last hlast
  obtain ⟨last', hlast', hsame⟩ := halike (twoSteps .turn .turn)
    (twoSteps (.reconfigure (.primaries 0)) (.reconfigure (.both 5 0))) rfl last hlast
  rw [howner] at hunlock
  exact ⟨sys, last, last', hrun, hunlock, hrelock.1, hlast, hround, ⟨_, hcontinued⟩, hlast', hsame⟩

end RoundScheduler
