import RoundScheduler.Proofs.Reconfiguration

/-!
# The staged configuration is what the requests leave

The staged configuration does not store the number of steps of each primary: it is the length of the
order divided by the number of primaries. A request for primaries alone reads it from there, so what
it stages depends on every request before it. Nobody ever takes a step of the staged configuration,
so the division leaves no remainder, and the staged configuration is what one gets by applying the
requests one after the other to the numbers that the scheduler was built with, leaving out those
that ask for a round without primaries or without steps.
-/

namespace RoundScheduler

open State

/-! ### Numbers and requests -/

namespace Request

/-- The numbers of primaries and of steps that a request asks for on top of given ones. -/
def on (numbers : Nat × Nat) : Request → Nat × Nat
  | both p s => (p, s)
  | primaries p => (p, numbers.2)
  | steps s => (numbers.1, s)

/-- The numbers after a request: those that it asks for, unless one of them is zero. -/
def amend (numbers : Nat × Nat) (r : Request) : Nat × Nat :=
  if (r.on numbers).1 = 0 ∨ (r.on numbers).2 = 0 then numbers else r.on numbers

/-- The answer to a request that is served while the given numbers are staged. -/
inductive Answered (numbers : Nat × Nat) (r : Request) : Reply → Prop
  /-- The number of primaries that it staged. -/
  | staged (hprimaries : (r.on numbers).1 ≠ 0) (hlimit : (r.on numbers).1 < Word.rowLimit)
    (hsteps : (r.on numbers).2 ≠ 0) : Answered numbers r (.staged (r.on numbers).1)
  /-- There would be no primaries. -/
  | noPrimaries (hprimaries : (r.on numbers).1 = 0) :
    Answered numbers r (.refused (.ofEmptyRound .noPrimaries))
  /-- There would be no steps. -/
  | noSteps (hprimaries : (r.on numbers).1 ≠ 0) (hsteps : (r.on numbers).2 = 0) :
    Answered numbers r (.refused (.ofEmptyRound .noSteps))
  /-- One pass over the primaries would be too long to be built. -/
  | overflowed (hlimit : Word.rowLimit ≤ (r.on numbers).1) (hsteps : (r.on numbers).2 ≠ 0) :
    Answered numbers r (.panicked (.overflow .capacity))

variable {numbers : Nat × Nat} {r : Request}

lemma amend_of_ne (hprimaries : (r.on numbers).1 ≠ 0) (hsteps : (r.on numbers).2 ≠ 0) :
    r.amend numbers = r.on numbers := if_neg (by simp [hprimaries, hsteps])

lemma amend_of_zero (h : (r.on numbers).1 = 0 ∨ (r.on numbers).2 = 0) :
    r.amend numbers = numbers := if_pos h

/-- Requests that ask for an empty round are left out, so none is ever asked for. -/
lemma amend_pos (h : 1 ≤ numbers.1 ∧ 1 ≤ numbers.2) :
    1 ≤ (r.amend numbers).1 ∧ 1 ≤ (r.amend numbers).2 := by
  rw [amend]
  split
  · exact h
  · omega

/-- What a request asks for on top of the staged configuration depends on its numbers alone. -/
lemma resolve_eq (staged : RoundConfig) :
    r.resolve staged = r.on (staged.primaries, staged.stepsPerPrimary) := by
  cases r <;> rfl

end Request

namespace RoundConfig

variable {n steps : Nat}

/-- The three outcomes of building a round-robin configuration. -/
lemma roundRobin_cases (n steps : Nat) :
    (n ≠ 0 ∧ steps ≠ 0 ∧ n < Word.rowLimit ∧ roundRobin n steps = .ok (ofPasses (n, steps))) ∨
    (n = 0 ∧ roundRobin n steps = .error (.empty .noPrimaries)) ∨
    (n ≠ 0 ∧ steps = 0 ∧ roundRobin n steps = .error (.empty .noSteps)) ∨
    (Word.rowLimit ≤ n ∧ steps ≠ 0 ∧ roundRobin n steps = .error (.overflow .capacity)) := by
  unfold roundRobin EmptyRound.check
  by_cases hn : n = 0
  · simp [hn]
  · by_cases hsteps : steps = 0
    · simp [hn, hsteps]
    · by_cases hlimit : n < Word.rowLimit
      · simp [hn, hsteps, hlimit, ofPasses]
      · simp [hn, hsteps, hlimit, Nat.le_of_not_lt hlimit]

/-- The numbers of a configuration can be read off it. -/
lemma numbers_of_roundRobin {c : RoundConfig} (h : roundRobin n steps = .ok c) :
    c.primaries = n ∧ c.stepsPerPrimary = steps := by
  have hpositive := (isRoundRobin_of_roundRobin h).1
  obtain rfl := eq_ofPasses h
  exact ⟨rfl, stepsPerPrimary_passes hpositive steps⟩

end RoundConfig

/-! ### The requests of a run -/

/-- The request that an answer is about, if it is the answer to one that did not break off. -/
def Return.request? (r : Return) : Option Request :=
  match r.operation, r.reply with
  | .reconfigure r, .staged _ | .reconfigure r, .refused _ => some r
  | _, _ => none

section

variable (a : Agent) (r : Request)

@[simp] lemma Return.request?_staged (n : Nat) :
    Return.request? ⟨a, .reconfigure r, .staged n⟩ = some r := rfl

@[simp] lemma Return.request?_refused (e : SchedulerError) :
    Return.request? ⟨a, .reconfigure r, .refused e⟩ = some r := rfl

@[simp] lemma Return.request?_panicked (p : Panic) :
    Return.request? ⟨a, .reconfigure r, .panicked p⟩ = none := rfl

end

/-- The numbers of primaries and of steps that the requests leave whose answers are among the given
ones, the latest of which comes first. -/
def requestedBy (c : Config) (returns : List Return) : Nat × Nat :=
  (returns.reverse.filterMap Return.request?).foldl Request.amend (c.primaries, c.stepsPerPrimary)

lemma requestedBy_cons {c : Config} (ret : Return) (returns : List Return) :
    requestedBy c (ret :: returns) =
      (ret.request?.toList).foldl Request.amend (requestedBy c returns) := by
  rw [requestedBy, List.reverse_cons, List.filterMap_append, List.foldl_append]
  cases h : ret.request? <;> simp [h, requestedBy]

/-- What serving a request does to the staged configuration, and how it is answered. -/
inductive Request.Served (staged : RoundConfig) (r : Request) : Reply → RoundConfig → Prop
  /-- A configuration is staged. -/
  | staged (c : RoundConfig)
    (hc : RoundConfig.roundRobin (r.resolve staged).1 (r.resolve staged).2 = .ok c) :
    Served staged r (.staged c.primaries) c
  /-- The numbers describe no round. -/
  | refused (e : EmptyRound)
    (he : RoundConfig.roundRobin (r.resolve staged).1 (r.resolve staged).2 = .error (.empty e)) :
    Served staged r (.refused (.ofEmptyRound e)) staged
  /-- The configuration is too large to be built. -/
  | overflowed (o : Word.Overflow)
    (ho : RoundConfig.roundRobin (r.resolve staged).1 (r.resolve staged).2 =
      .error (.overflow o)) : Served staged r (.panicked (.overflow o)) staged

/-- A request is answered by its numbers, and the numbers that it leaves are staged unless it breaks
off. -/
lemma Request.Served.answered {staged staged' : RoundConfig} {numbers : Nat × Nat} {r : Request}
    {reply : Reply} (h : r.Served staged reply staged')
    (hresolve : r.resolve staged = r.on numbers)
    (hnumbers : RoundConfig.roundRobin numbers.1 numbers.2 = .ok staged) (a : Agent) :
    r.Answered numbers reply ∧
      RoundConfig.roundRobin
        ((Return.request? ⟨a, .reconfigure r, reply⟩).toList.foldl Request.amend numbers).1
        ((Return.request? ⟨a, .reconfigure r, reply⟩).toList.foldl Request.amend numbers).2 =
      .ok staged' := by
  have hcases := RoundConfig.roundRobin_cases (r.on numbers).1 (r.on numbers).2
  have hkept : (r.on numbers).1 = 0 ∨ (r.on numbers).2 = 0 →
      RoundConfig.roundRobin (r.amend numbers).1 (r.amend numbers).2 = .ok staged := fun hzero => by
    rw [amend_of_zero hzero, hnumbers]
  cases h with
  | staged _ hc =>
    rw [hresolve] at hc
    rw [hc] at hcases
    rcases hcases with ⟨hp, hs, hlimit, heq⟩ | ⟨-, heq⟩ | ⟨-, -, heq⟩ | ⟨-, -, heq⟩ <;> cases heq
    have hamended : RoundConfig.roundRobin (r.amend numbers).1 (r.amend numbers).2 =
        .ok (RoundConfig.ofPasses ((r.on numbers).1, (r.on numbers).2)) := by
      rw [amend_of_ne hp hs, hc]
    exact ⟨.staged hp hlimit hs, by simpa using hamended⟩
  | refused e he =>
    rw [hresolve] at he
    rw [he] at hcases
    rcases hcases with ⟨-, -, -, heq⟩ | ⟨hp, heq⟩ | ⟨hp, hs, heq⟩ | ⟨-, -, heq⟩ <;> cases heq
    · exact ⟨.noPrimaries hp, by simpa using hkept (.inl hp)⟩
    · exact ⟨.noSteps hp hs, by simpa using hkept (.inr hs)⟩
  | overflowed o ho =>
    rw [hresolve] at ho
    rw [ho] at hcases
    rcases hcases with ⟨-, -, -, heq⟩ | ⟨-, heq⟩ | ⟨-, -, heq⟩ | ⟨hlimit, hs, heq⟩ <;> cases heq
    exact ⟨.overflowed hlimit hs, by simpa using hnumbers⟩

/-- A move that answers a request, by a turn of the thread that made it. -/
structure System.Serves (sys sys' : System) (t : ThreadId) (r : Request) (reply : Reply) :
    Prop where
  returns : sys'.returns = ⟨.unit t, .reconfigure r, reply⟩ :: sys.returns
  /-- The turn is the only one that the move records. -/
  turn : ∃ slot rest, sys'.state.events =
    sys.state.events ++ .turn sys.state.round t slot :: rest ∧ ∀ e ∈ rest, e.turn? = none
  served : r.Served sys.state.staged reply sys'.state.staged

/-- A move serves a request, or it stages nothing and answers no request. -/
lemma Invariant.serves_or_keeps {sys sys' : System} (h : Invariant sys)
    (hs : System.Step sys sys') :
    (∃ t r reply, sys.Serves sys' t r reply) ∨
      (sys'.state.staged = sys.state.staged ∧ ∃ new, sys'.returns = new ++ sys.returns ∧
        ∀ ret ∈ new, ∀ r, ret.operation ≠ .reconfigure r) := by
  obtain ⟨eligible, m, hm⟩ := hs
  -- Answers to other operations answer no request.
  have hother : ∀ {a : Agent} {op : Operation} {o : Outcome}, (o.state sys.state).staged =
      sys.state.staged → (∀ r, op ≠ .reconfigure r) ∨ o.returns a op = [] →
      (sys.apply a op o).state.staged = sys.state.staged ∧
        ∃ new, (sys.apply a op o).returns = new ++ sys.returns ∧
          ∀ ret ∈ new, ∀ r, ret.operation ≠ .reconfigure r := by
    intro a op o hstaged hop
    refine ⟨by rw [System.state_apply, hstaged], _, System.returns_apply .., fun ret hret => ?_⟩
    rcases hop with hop | hnone
    · cases o <;> simp_all [Outcome.returns]
    · simp [hnone] at hret
  cases h.transition hm with
  | call a op o hinside hidle halive hlocks ho =>
    refine .inr (hother (by cases ho <;> rfl) ?_)
    cases ho with
    | reconfigure => exact .inr rfl
    | _ => exact .inl (by simp)
  | intake a op p o hinside hcall ho =>
    obtain ⟨hop, -⟩ := (hcall ▸ h.placed a).of_submission
    refine .inr (hother ?_ (.inl fun r heq => by cases heq ▸ hop))
    rcases h.intake_arrival hcall ho with heq | harrival
    · rw [heq]
    · exact harrival.staged_eq
  | stretch t op ph o hinside hcall hop ho =>
    subst hop
    have hserves : ∀ {r : Request} {slot : Slot} {reply : Reply} {s' : State} {rest : List Event},
        s'.events = sys.state.events ++ .turn sys.state.round t slot :: rest →
        (∀ e ∈ rest, e.turn? = none) → r.Served sys.state.staged reply s'.staged →
        ∃ u q ans, sys.Serves (sys.apply (.unit t) (.reconfigure r) (.reply s' reply)) u q ans :=
      fun hevents hrest hserved => ⟨t, _, _, rfl, ⟨_, _, hevents, hrest⟩, hserved⟩
    cases ho with
    | staged r slot c hslot hhead hc =>
      exact .inl (hserves (events_staged slot _ _ c) (by simp [Event.turn?]) (.staged c hc))
    | refused r slot e hslot hhead he =>
      refine .inl (hserves (events_afterTurn slot) (by simp) ?_)
      rw [staged_afterTurn]
      exact .refused e he
    | overflowed r slot o hslot hhead ho =>
      refine .inl (hserves (events_afterTurn slot) (by simp) ?_)
      rw [staged_afterTurn]
      exact .overflowed o ho
    | turn slot | granted l k slot | queued l k slot =>
      exact .inr (hother (staged_afterTurn slot) (.inl fun _ h => by cases h))
    | retired slot => exact .inr (hother (staged_afterRetirement slot) (.inl fun _ h => by cases h))
    | bootstrap | bootstrapRetirement => exact .inr (hother staged_beginRound (.inr rfl))
    | closed =>
      exact .inr (hother (staged_beginRound (s := sys.state.closeRound)) (.inr rfl))
    | handed | left => exact .inr (hother rfl (.inl fun _ h => by cases h))
    | _ => exact .inr (hother rfl (.inr rfl))
  | enter a call hinside => exact .inr ⟨rfl, [], rfl, by simp⟩
  | newLock hinside => exact .inr ⟨rfl, [], rfl, by simp⟩
  | dropLock l hinside hl => exact .inr ⟨by rw [dropLock_eq hl], [], rfl, by simp⟩

/-! ### The requests so far -/

/-- The staged configuration and the answers to requests are what the requests so far say. -/
structure Heeded (c : Config) (sys : System) : Prop where
  /-- The requests leave a round with primaries and steps. -/
  positive : 1 ≤ (requestedBy c sys.returns).1 ∧ 1 ≤ (requestedBy c sys.returns).2
  /-- It is the one that is staged. -/
  staged : RoundConfig.roundRobin (requestedBy c sys.returns).1 (requestedBy c sys.returns).2 =
    .ok sys.state.staged
  /-- Every request was answered by what was asked for before it. -/
  answers : ∀ later ret earlier r, sys.returns = later ++ ret :: earlier →
    ret.operation = .reconfigure r → r.Answered (requestedBy c earlier) ret.reply

namespace Heeded

variable {c : Config} {sys sys' : System}

/-- In a system that nobody used the numbers of the scheduler are staged. -/
lemma initial (h : System.initial c = .ok sys) : Heeded c sys := by
  obtain ⟨rounds, hrounds, rfl⟩ := Invariant.eq_of_initial h
  have hrobin := RoundConfig.isRoundRobin_of_roundRobin hrounds
  have hnumbers := RoundConfig.numbers_of_roundRobin hrounds
  constructor
  case positive =>
    exact ⟨show 1 ≤ c.primaries from hnumbers.1 ▸ hrobin.1,
      show 1 ≤ c.stepsPerPrimary from hnumbers.2 ▸ hrobin.eq_passes.2⟩
  case staged => exact hrounds
  case answers => simp

/-- What is asked for on top of what is staged. -/
lemma resolve_eq (h : Heeded c sys) (r : Request) :
    r.resolve sys.state.staged = r.on (requestedBy c sys.returns) := by
  obtain ⟨hprimaries, hsteps⟩ := RoundConfig.numbers_of_roundRobin h.staged
  rw [Request.resolve_eq, hprimaries, hsteps]

/-- Answers to other operations leave the requests as they are. -/
lemma requestedBy_append {new returns : List Return}
    (hnew : ∀ ret ∈ new, ∀ r, ret.operation ≠ .reconfigure r) :
    requestedBy c (new ++ returns) = requestedBy c returns := by
  have hnone : ∀ ret ∈ new.reverse, ret.request? = none := by
    intro ret hret
    obtain ⟨a, op, reply⟩ := ret
    cases op with
    | reconfigure r => exact absurd rfl (hnew _ (List.mem_reverse.mp hret) r)
    | _ => rfl
  rw [requestedBy, List.reverse_append, List.filterMap_append,
    List.filterMap_eq_nil_iff.mpr hnone, List.append_nil]
  rfl

/-- The agreement is kept while no request is answered. -/
lemma keep (h : Heeded c sys) (hstaged : sys'.state.staged = sys.state.staged)
    {new : List Return} (hreturns : sys'.returns = new ++ sys.returns)
    (hnew : ∀ ret ∈ new, ∀ r, ret.operation ≠ .reconfigure r) : Heeded c sys' := by
  have hsame : requestedBy c sys'.returns = requestedBy c sys.returns :=
    hreturns ▸ requestedBy_append hnew
  constructor
  case positive => exact hsame ▸ h.positive
  case staged => rw [hsame, hstaged, h.staged]
  case answers =>
    intro later ret earlier r hsplit hop
    rw [hreturns] at hsplit
    rcases List.append_eq_append_iff.mp hsplit with ⟨as, -, hold⟩ | ⟨bs, hold, hrest⟩
    · exact h.answers as ret earlier r hold hop
    · cases bs with
      | nil => exact h.answers [] ret earlier r (by simpa using hrest.symm) hop
      | cons b bs =>
        obtain ⟨rfl, -⟩ := List.cons.inj hrest
        exact absurd hop (hnew _ (by simp [hold]) r)

/-- The agreement is kept when a request is answered. -/
lemma serve (h : Heeded c sys) {t : ThreadId} {r : Request} {reply : Reply}
    (hs : sys.Serves sys' t r reply) : Heeded c sys' := by
  obtain ⟨hreturns, -, hserved⟩ := hs
  have hrequested : requestedBy c sys'.returns =
      (Return.request? ⟨.unit t, .reconfigure r, reply⟩).toList.foldl Request.amend
        (requestedBy c sys.returns) := hreturns ▸ requestedBy_cons _ _
  obtain ⟨hanswered, hstaged⟩ := hserved.answered (h.resolve_eq r) h.staged (.unit t)
  constructor
  case positive =>
    rw [hrequested]
    cases Return.request? ⟨.unit t, .reconfigure r, reply⟩ with
    | none => exact h.positive
    | some q => exact Request.amend_pos h.positive
  case staged => rw [hrequested, hstaged]
  case answers =>
    intro later ret earlier q hsplit hop
    rw [hreturns] at hsplit
    cases later with
    | nil =>
      obtain ⟨rfl, rfl⟩ := List.cons.inj hsplit
      cases hop
      exact hanswered
    | cons _ later => exact h.answers later ret earlier q (List.cons.inj hsplit).2 hop

/-- Every move keeps the agreement. -/
theorem step (h : Heeded c sys) (hinv : Invariant sys) (hs : System.Step sys sys') :
    Heeded c sys' := by
  rcases hinv.serves_or_keeps hs with ⟨t, r, reply, hserves⟩ | ⟨hstaged, new, hreturns, hnew⟩
  · exact h.serve hserves
  · exact h.keep hstaged hreturns hnew

/-- The agreement holds of every system that can be reached. -/
theorem of_reachable (h : System.Reachable c sys) : Heeded c sys := by
  induction h using System.Reachable.induction with
  | initial sys hstart => exact initial hstart
  | step sys sys' hreach hs ih => exact ih.step (Invariant.of_reachable hreach) hs

end Heeded

/-- The staged configuration is the round-robin one with the numbers of primaries and of steps that
all requests so far leave, and exactly these numbers can be read off it. Every request was answered
by the numbers that those before it had left: it staged the primaries that it asked for, or it was
refused because it asked for none or for no steps, or one pass over the primaries was too long to be
built. A request is answered by the move that records its turn, so the order of the answers is the
order of the turns. -/
theorem staged_of_requests {c : Config} {sys : System} (h : System.Reachable c sys) :
    1 ≤ (requestedBy c sys.returns).1 ∧ 1 ≤ (requestedBy c sys.returns).2 ∧
    RoundConfig.roundRobin (requestedBy c sys.returns).1 (requestedBy c sys.returns).2 =
      .ok sys.state.staged ∧
    sys.state.staged.primaries = (requestedBy c sys.returns).1 ∧
    sys.state.staged.stepsPerPrimary = (requestedBy c sys.returns).2 ∧
    (∀ later ret earlier r, sys.returns = later ++ ret :: earlier →
      ret.operation = .reconfigure r → r.Answered (requestedBy c earlier) ret.reply) ∧
    ∀ next a r reply, System.Step sys next →
      next.returns = ⟨a, .reconfigure r, reply⟩ :: sys.returns →
        ∃ t slot rest, a = .unit t ∧ next.state.events =
          sys.state.events ++ .turn sys.state.round t slot :: rest ∧
            ∀ e ∈ rest, e.turn? = none := by
  have hheeded := Heeded.of_reachable h
  obtain ⟨hprimaries, hsteps⟩ := RoundConfig.numbers_of_roundRobin hheeded.staged
  refine ⟨hheeded.positive.1, hheeded.positive.2, hheeded.staged, hprimaries, hsteps,
    hheeded.answers, fun next a r reply hs hreturns => ?_⟩
  rcases (Invariant.of_reachable h).serves_or_keeps hs with
    ⟨t, q, reply', hserves⟩ | ⟨-, new, hnew, hnone⟩
  · obtain ⟨slot, rest, hevents, hrest⟩ := hserves.turn
    obtain ⟨heq, -⟩ := List.cons.inj (hserves.returns.symm.trans hreturns)
    cases heq
    exact ⟨t, slot, rest, rfl, hevents, hrest⟩
  · -- The answer would be to another operation.
    obtain rfl : new = [⟨a, .reconfigure r, reply⟩] :=
      List.append_cancel_right (hnew.symm.trans hreturns)
    exact absurd rfl (hnone _ (List.mem_singleton.mpr rfl) r)

/-! ### Requests of two threads -/

/-- The moves by which two threads take turns to ask for three steps, for no primaries, for no steps
and for a single primary, across the end of the first round. -/
def mixedRequests : List Move :=
  [.call (.client 0) (.submit .noop), .advance, .advance,
    .call (.client 0) (.submit .noop), .advance, .advance,
    .call (.unit ⟨0⟩) (.reconfigure (.steps 3)), .advance, .advance, .advance, .advance, .advance,
    .call (.unit ⟨1⟩) (.reconfigure (.primaries 0)), .advance, .advance,
    .call (.unit ⟨0⟩) (.reconfigure (.both 5 0)), .advance, .advance, .advance, .advance,
    .call (.unit ⟨1⟩) (.reconfigure (.primaries 1)), .advance, .advance, .advance, .advance,
    .advance, .advance, .advance, .advance, .advance, .advance, .advance,
    .enter (.unit ⟨0⟩), .advance, .advance,
    .enter (.unit ⟨1⟩), .advance, .advance]

/-- The last request keeps the three steps that the first one asked for, because the two in between
were refused. -/
theorem staged_of_requests_mixedRequests :
    ∃ sys, System.run? { primaries := 2 } (fun _ => true) mixedRequests = some sys ∧
      sys.returns.reverse.filterMap Return.request? =
        [.steps 3, .primaries 0, .both 5 0, .primaries 1] ∧
      sys.state.staged.primaries = 1 ∧ sys.state.staged.stepsPerPrimary = 3 ∧
      RoundConfig.roundRobin 1 3 = .ok sys.state.staged := by
  obtain ⟨sys, hrun, hrequests⟩ : ∃ sys,
      System.run? { primaries := 2 } (fun _ => true) mixedRequests = some sys ∧
      sys.returns.reverse.filterMap Return.request? =
        [.steps 3, .primaries 0, .both 5 0, .primaries 1] := ⟨_, rfl, rfl⟩
  obtain ⟨-, -, hstaged, hprimaries, hsteps, -⟩ :=
    staged_of_requests (System.reachable_of_run? hrun)
  have hrequested : requestedBy { primaries := 2 } sys.returns = (1, 3) := by
    rw [requestedBy, hrequests]
    rfl
  rw [hrequested] at hstaged hprimaries hsteps
  exact ⟨sys, hrun, hrequests, hprimaries, hsteps, hstaged⟩

end RoundScheduler
