import RoundScheduler.Proofs.Formation

/-!
# Closing rounds

Whoever looks at a round that is over closes it, fills the next one, and looks again. Nothing in
this loop says that it ends after one round, and while the thread sleeps for want of threads the
others go on: the primaries chosen so far may use up their steps, join queues and retire before the
last one is chosen. But nobody else begins a round meanwhile, and the choice of the last primary
ends the fill within the same critical section. That thread was no primary before, so none of the
flags that stop progress is set for it, and the second look finds the round open.
-/

namespace RoundScheduler

open State

/-- A look at the round would close it: it is filled, and none of its primaries can make
progress. -/
def State.Closeable (s : State) : Prop :=
  s.live.primaries ≤ s.primaries.length ∧ ∀ t ∈ s.primaries, s.canProgress t = false

/-- A round whose last primary can make progress is not over. -/
lemma State.not_closeable_of_last {s : State} {t : ThreadId} (hlast : s.primaries.getLast? = some t)
    (hcan : s.canProgress t = true) : ¬ s.Closeable := fun hclose => by
  simp [hclose.2 t (List.mem_of_getLast? hlast)] at hcan

/-- Whether a place is in the loop that looks at the round: about to look, or filling the round that
was begun after the one before was closed. -/
def Phase.looks (k : AfterCheck) : Phase → Bool
  | check k' | fill _ _ (.recheck k') => k' = k
  | _ => false

lemma Phase.looks_iff {k : AfterCheck} {ph : Phase} :
    ph.looks k = true ↔ ph = .check k ∨ ∃ index plan, ph = .fill index plan (.recheck k) := by
  cases ph with
  | fill index plan k' => cases k' <;> simp [looks]
  | _ => simp [looks]

namespace System

/-- A thread is in the loop that looks at the round. -/
def IsLooking (sys : System) (t : ThreadId) (k : AfterCheck) : Prop :=
  (sys.phase? (.unit t)).any (Phase.looks k) = true

/-- One system comes from another by moves through which a thread stays in the loop that looks at
the round. -/
abbrev LookPath (t : ThreadId) (k : AfterCheck) : System → System → Prop :=
  Relation.ReflTransGen fun sys sys' => Step sys sys' ∧ sys'.IsLooking t k

lemma LookPath.path {t : ThreadId} {k : AfterCheck} {sys sys' : System}
    (h : LookPath t k sys sys') : Path sys sys' :=
  Relation.ReflTransGen.mono (fun _ _ => And.left) _ _ h

end System

/-! ### What a stretch means for the round -/

section Stretch

variable {eligible : ThreadId → Bool} {s : State} {t : ThreadId} {ph : Phase} {o : Outcome}

/-- Nobody falls asleep while it looks at the round, and whoever goes on to look at it stays inside
the critical section. -/
lemma Stretch.inside?_of_checks (ho : Stretch eligible s t ph o) {op : Operation} {ph' : Phase}
    (hph : (o.call? (some ⟨op, .thread t ph⟩) op).bind (fun call => call.point.phase?) = some ph')
    (hchecks : ph'.checks = true) : o.inside? (.unit t) = some (.unit t) := by
  cases ho with
  | sleepForSeat | sleepForEnd | sleepForTurn | sleepInQueue | runOut | sleepForRetirement =>
    cases hph
    cases hchecks
  | turn | granted | staged | refused | overflowed | handed | left => cases hph
  | _ => rfl

end Stretch

/-! ### Who looks at the round -/

namespace System

variable {c : Config} {sys sys' : System} {eligible : ThreadId → Bool} {t : ThreadId}
  {k : AfterCheck}

/-- Whoever is about to look at the round is inside the critical section. -/
theorem inside_of_checks (h : Reachable c sys) : ∀ a ph, sys.phase? a = some ph →
    ph.checks = true → sys.inside = some a := by
  induction h using Reachable.induction with
  | initial sys hstart =>
    obtain ⟨rounds, -, rfl⟩ := Invariant.exists_rounds_of_initial hstart
    intro a ph hph
    cases hph
  | step sys sys' hreach hs ih =>
    obtain ⟨eligible, m, hm⟩ := hs
    intro a ph hph hchecks
    -- Nobody else moves while somebody looks at the round.
    have hother : sys.inside ≠ some a → sys.phase? a ≠ some ph := fun hinside hbefore =>
      hinside (ih a ph hbefore hchecks)
    have houtside : sys.inside = none → sys.phase? a ≠ some ph := fun hinside =>
      hother (by simp [hinside])
    cases (Invariant.of_reachable hreach).transition hm with
    | call b op o hinside hidle halive hlocks ho =>
      rw [phase?_apply hidle] at hph
      split at hph
      · cases ho <;> cases hph <;> cases hchecks
      · exact absurd hph (houtside hinside)
    | stretch t op ph' o hinside hcall hop ho =>
      rw [phase?_apply hcall] at hph
      rw [inside_apply]
      split at hph
      · next ha =>
        subst ha
        exact ho.inside?_of_checks hph hchecks
      · next ha => exact absurd hph (hother (by simpa [hinside] using Ne.symm ha))
    | intake b op p o hinside hcall ho =>
      rw [phase?_apply hcall] at hph
      split at hph
      · cases ho <;> cases hph
      · next ha => exact absurd hph (hother (by simpa [hinside] using Ne.symm ha))
    | enter b call hinside | newLock hinside | dropLock l hinside =>
      exact absurd hph (houtside hinside)

end System

/-! ### One filler -/

namespace Invariant

variable {sys sys' : System} {eligible : ThreadId → Bool} {m : Move} {t : ThreadId}

/-- A round is begun when nobody fills one, by the thread inside the critical section, which fills
it from the front of the list. -/
lemma begins (h : Invariant sys) (hm : sys.move? eligible m = some sys')
    (hbegins : sys'.state.round ≠ sys.state.round ∨
      ∃ a, sys.fill? a = none ∧ (sys'.fill? a).isSome) :
    (∀ a, sys.fill? a = none) ∧ (sys.state.round = 0 ∨ sys.state.Closeable) ∧
      ∃ t, sys.inside = some (.unit t) ∧ sys'.fill? (.unit t) = some (0, sys.state.staged) ∧
        sys'.state.round = sys.state.round + 1 := by
  cases h.roundMove hm with
  | begins t hinside hover hbegun hnone hfill =>
    exact ⟨hnone, hover, t, hinside, by rw [hfill, if_pos rfl], hbegun.round⟩
  | @fills t index plan k o ho hbefore hfilling hfill =>
    rcases hbegins with hne | ⟨a, hnone, hsome⟩
    · cases ho.stretch <;> exact absurd rfl hne
    · -- Only the thread that filled the round before may go on with it.
      by_cases ha : a = .unit t
      · simp [ha, hbefore] at hnone
      · simp [hfill, ha] at hsome
  | aside haside hfill =>
    rcases hbegins with hne | ⟨a, hnone, hsome⟩
    · exact absurd haside.settled.round hne
    · simp [hfill, hnone] at hsome

/-- A round that is full while somebody fills it has just got its last primary, which can make
progress. -/
lemma last_canProgress (h : Invariant sys) (hm : sys.move? eligible m = some sys') {a : Agent}
    (ha : (sys'.fill? a).isSome)
    (hfull : sys'.state.live.primaries ≤ sys'.state.primaries.length) :
    ∃ u, sys'.state.primaries.getLast? = some u ∧ sys'.state.canProgress u = true := by
  cases h.roundMove hm with
  | begins t hinside hover hbegun =>
    rw [hbegun.primaries, hbegun.live] at hfull
    exact absurd hfull (Nat.not_le.mpr h.sound.seating.staged.1)
  | fills index plan k ho hbefore hfilling hfill =>
    cases ho.stretch with
    | runOut _ _ _ hlen | skipped _ _ _ u r hlen =>
      exact absurd hfull (Nat.not_le.mpr (hfilling.primaries ▸ hlen))
    | chosen _ _ _ u r hlen hu hr hterminated =>
      exact ⟨u, by simp [Outcome.state, choose], Watched.canProgress_choose h.sound hr hterminated
        (hfilling.not_mem h.sound.roster hu)⟩
    | filled => simp [System.none_of_filled hfill a] at ha
  | aside haside hfill hidle =>
    -- Whoever fills a full round is inside the critical section, and it has the next move.
    rw [hfill] at ha
    obtain ⟨⟨index, plan⟩, hfiller⟩ := Option.isSome_iff_exists.mp ha
    rw [haside.settled.primaries, haside.settled.live] at hfull
    have hinside := (h.fillers.filling a index plan hfiller).2.resolve_right (Nat.not_lt.mpr hfull)
    simp [hidle a hinside] at ha

/-- Whoever is inside the critical section at the place of a thread has the next move. -/
lemma stretch_of_inside (h : Invariant sys) (hinside : sys.inside = some (.unit t)) {ph : Phase}
    (hph : sys.phase? (.unit t) = some ph) (hm : sys.move? eligible m = some sys') :
    ∃ o, Stretch eligible sys.state t ph o ∧ sys' = sys.apply (.unit t) ph.operation o := by
  have hcall := h.call_of_phase hph
  cases h.transition hm with
  | stretch u op ph' o hinside' hcall' hop ho =>
    cases hinside.symm.trans hinside'
    cases hcall.symm.trans hcall'
    exact ⟨o, ho, rfl⟩
  | intake a op p o hinside' hcall' =>
    cases hinside.symm.trans hinside'
    cases hcall.symm.trans hcall'
  | call _ _ _ hnone | enter _ _ hnone | newLock hnone | dropLock _ hnone =>
    cases hinside.symm.trans hnone

/-- Whoever ends a fill leaves a round with all its primaries. -/
lemma fill_ended (h : Invariant sys) (hm : sys.move? eligible m = some sys') {a : Agent}
    (ha : (sys.fill? a).isSome) (hended : sys'.fill? a = none) :
    sys.state.live.primaries ≤ sys.state.primaries.length ∧
      ∃ order, sys'.state = sys.state.recordStart order := by
  cases h.roundMove hm with
  | begins t hinside hover hbegun hnone => simp [hnone] at ha
  | @fills t index plan k o ho hbefore hfilling hfill =>
    obtain rfl : a = .unit t := h.fillers.unique a _ ha (by simp [hbefore])
    rw [hfill, if_pos rfl] at hended
    cases ho.stretch with
    | runOut | skipped | chosen => cases hended
    | filled _ _ _ hlen => exact ⟨hfilling.primaries ▸ hlen, plan.order, rfl⟩
  | aside haside hfill =>
    rw [hfill] at hended
    simp [hended] at ha

end Invariant

namespace System

variable {c : Config} {sys sys' last : System} {t : ThreadId} {k : AfterCheck}

/-- The last primary of a round that is full while somebody fills it can make progress. -/
lemma Reachable.last_canProgress (h : Reachable c sys) {a : Agent} (ha : (sys.fill? a).isSome)
    (hfull : sys.state.live.primaries ≤ sys.state.primaries.length) :
    ∃ u, sys.state.primaries.getLast? = some u ∧ sys.state.canProgress u = true := by
  obtain ⟨start, hstart, hpath⟩ := h
  cases hpath with
  | refl =>
    obtain ⟨rounds, -, rfl⟩ := Invariant.exists_rounds_of_initial hstart
    cases ha
  | tail hpath hs =>
    obtain ⟨eligible, m, hm⟩ := hs
    exact (Invariant.of_reachable ⟨start, hstart, hpath⟩).last_canProgress hm ha hfull

/-- Once a round has been filled, its last primary can make progress. -/
lemma Reachable.canProgress_of_fill_ended (h : Reachable c sys) (hs : Step sys sys') {a : Agent}
    (ha : (sys.fill? a).isSome) (hended : sys'.fill? a = none) :
    sys'.state.primaries.length = sys'.state.live.primaries ∧
      ∃ u, sys'.state.primaries.getLast? = some u ∧ sys'.state.canProgress u = true := by
  have hinv := Invariant.of_reachable h
  obtain ⟨eligible, m, hm⟩ := hs
  obtain ⟨hfull, order, hstate⟩ := hinv.fill_ended hm ha hended
  rw [hstate]
  exact ⟨Nat.le_antisymm hinv.sound.seating.length_le hfull, h.last_canProgress ha hfull⟩

/-! ### One close per look -/

/-- How far a thread is in the loop that looks at the round, having entered it in the round
`round`. -/
inductive LookStage (round : Nat) (t : ThreadId) (k : AfterCheck) (sys : System) : Prop
  /-- It closed no round. -/
  | first (hround : sys.state.round = round) (hcheck : sys.phase? (.unit t) = some (.check k))
  /-- It closed a round and fills the next one. -/
  | filling (hround : sys.state.round = round + 1) {index : Nat} {plan : RoundConfig}
    (hfill : sys.phase? (.unit t) = some (.fill index plan (.recheck k)))
  /-- It filled that round and looks again. -/
  | again (hround : sys.state.round = round + 1) (hcheck : sys.phase? (.unit t) = some (.check k))
    (hopen : ¬ sys.state.Closeable)

/-- Through the loop no second round is closed. -/
lemma LookStage.step {round : Nat} (h : Reachable c sys) (hstage : LookStage round t k sys)
    (hs : Step sys sys') (hlook : sys'.IsLooking t k) : LookStage round t k sys' := by
  have hinv := Invariant.of_reachable h
  have hs' := hs
  obtain ⟨eligible, m, hm⟩ := hs
  -- A look that finds the round open ends the loop.
  have hleft : ∀ {o}, sys' = sys.apply (.unit t) (Phase.check k).operation o →
      sys.phase? (.unit t) = some (.check k) →
      Stretch eligible sys.state t (.check k) o → sys.state.Closeable ∧
        sys'.state.round = sys.state.round + 1 ∧
        sys'.phase? (.unit t) = some (.fill 0 sys.state.staged (.recheck k)) := by
    rintro o rfl hph ho
    have hcall := hinv.call_of_phase hph
    rw [IsLooking, phase?_apply hcall, if_pos rfl] at hlook
    rw [phase?_apply hcall, if_pos rfl, state_apply]
    cases ho with
    | closed k hfull hstuck => exact ⟨⟨hfull, hstuck⟩, by simp [Outcome.state], rfl⟩
    | stillOpen k ph' hk hopen => cases k <;> cases hk <;> cases hlook
    | left hopen => cases hlook
  cases hstage with
  | first hround hcheck =>
    obtain ⟨o, ho, hsys⟩ := hinv.stretch_of_inside (inside_of_checks h _ _ hcheck rfl) hcheck hm
    obtain ⟨-, hnext, hfill⟩ := hleft hsys hcheck ho
    exact .filling (hround ▸ hnext) hfill
  | again hround hcheck hopen =>
    obtain ⟨o, ho, hsys⟩ := hinv.stretch_of_inside (inside_of_checks h _ _ hcheck rfl) hcheck hm
    exact absurd (hleft hsys hcheck ho).1 hopen
  | filling hround hfill =>
    have hfiller : (sys.fill? (.unit t)).isSome := by simp [fill?, hfill, Phase.fill?]
    have hsame : sys'.state.round = round + 1 := by
      refine hround ▸ by_contra fun hne => ?_
      simp [(hinv.begins hm (.inl hne)).1] at hfiller
    obtain ⟨ph, hph, hlooks⟩ := (Option.any_eq_true _ _).mp hlook
    rcases Phase.looks_iff.mp hlooks with rfl | ⟨index', plan', rfl⟩
    · have hended : sys'.fill? (.unit t) = none := by simp [fill?, hph, Phase.fill?]
      obtain ⟨-, u, hlast, hcan⟩ := h.canProgress_of_fill_ended hs' hfiller hended
      exact .again hsame hph (State.not_closeable_of_last hlast hcan)
    · exact .filling hsame hph

/-- The first look stands at the beginning of the loop. -/
lemma LookPath.stage (h : Reachable c sys) (hcheck : sys.phase? (.unit t) = some (.check k))
    (hpath : LookPath t k sys last) : LookStage sys.state.round t k last := by
  induction hpath with
  | refl => exact .first rfl hcheck
  | tail hpath hs ih => exact ih.step (h.path (LookPath.path hpath)) hs.1 hs.2

/-- The move after any part of the loop leaves at most one round closed since its beginning. -/
lemma LookStage.round_le {round : Nat} (h : Reachable c sys) (hstage : LookStage round t k sys)
    (hs : Step sys sys') : sys'.state.round ≤ round + 1 := by
  have hinv := Invariant.of_reachable h
  obtain ⟨eligible, m, hm⟩ := hs
  by_cases hne : sys'.state.round = sys.state.round
  · cases hstage <;> omega
  · obtain ⟨hnobody, hclose, -, -, -, hnext⟩ := hinv.begins hm (.inl hne)
    cases hstage with
    | first hround => omega
    | filling hround hfill =>
      have hnone := hnobody (.unit t)
      simp [fill?, hfill, Phase.fill?] at hnone
    | again hround hcheck hopen => exact absurd (hclose.resolve_left (by omega)) hopen

end System

/-- At most one thread fills a round at a time. A round is begun only while nobody fills one, by the
thread inside the critical section, which fills it from the front of the list; after the first round
this is a close. Whenever a fill ends, the round is full and the primary chosen last can make
progress, so that a look at the round would not close it, whatever the other primaries did
meanwhile. And from the moment a thread looks at the round until it leaves the loop, at most one
round is closed, by whomever. -/
theorem one_filler_one_close {c : Config} {sys : System} (h : System.Reachable c sys) :
    (∀ a b, (sys.fill? a).isSome → (sys.fill? b).isSome → a = b) ∧
    (∀ next, System.Step sys next → (next.state.round ≠ sys.state.round ∨
        ∃ a, sys.fill? a = none ∧ (next.fill? a).isSome) →
      (∀ a, sys.fill? a = none) ∧ (sys.state.round = 0 ∨ sys.state.Closeable) ∧
      ∃ t, sys.inside = some (.unit t) ∧ next.fill? (.unit t) = some (0, sys.state.staged) ∧
        next.state.round = sys.state.round + 1) ∧
    (∀ next a, System.Step sys next → (sys.fill? a).isSome → next.fill? a = none →
      next.state.primaries.length = next.state.live.primaries ∧
      (∃ t, next.state.primaries.getLast? = some t ∧ next.state.canProgress t = true) ∧
      ¬ next.state.Closeable) ∧
    ∀ t k last, sys.phase? (.unit t) = some (.check k) → System.LookPath t k sys last →
      last.state.round ≤ sys.state.round + 1 ∧
      ∀ next, System.Step last next → next.state.round ≤ sys.state.round + 1 := by
  have hinv := Invariant.of_reachable h
  refine ⟨hinv.fillers.unique, fun next ⟨eligible, m, hm⟩ => hinv.begins hm,
    fun next a hs ha hended => ?_, fun t k last hcheck hpath => ?_⟩
  · obtain ⟨hfull, u, hlast, hcan⟩ := h.canProgress_of_fill_ended hs ha hended
    exact ⟨hfull, ⟨u, hlast, hcan⟩, State.not_closeable_of_last hlast hcan⟩
  · have hstage := System.LookPath.stage h hcheck hpath
    have hreach := h.path (System.LookPath.path hpath)
    exact ⟨by cases hstage <;> omega, fun next => hstage.round_le hreach⟩

/-! ### A long fill -/

/-- Whether a thread stays in the loop that looks at the round through some moves. -/
def System.staysLooking (eligible : ThreadId → Bool) (t : ThreadId) (k : AfterCheck) :
    System → List Move → Bool
  | _, [] => true
  | sys, m :: ms => (sys.move? eligible m).any fun next =>
      (next.phase? (.unit t)).any (Phase.looks k) && next.staysLooking eligible t k ms

lemma System.lookPath_of_follow? {eligible : ThreadId → Bool} {t : ThreadId} {k : AfterCheck}
    {ms : List Move} {sys last : System} (h : sys.follow? eligible ms = some last)
    (hlook : sys.staysLooking eligible t k ms = true) : LookPath t k sys last := by
  induction ms generalizing sys with
  | nil =>
    cases h
    exact .refl
  | cons m ms ih =>
    obtain ⟨next, hm, hms⟩ := Option.bind_eq_some_iff.mp h
    simp only [staysLooking, hm, Option.any_some, Bool.and_eq_true] at hlook
    exact .head ⟨⟨eligible, m, hm⟩, hlook.1⟩ (ih hms hlook.2)

/-- The moves of two threads up to the point where the second one looks at the first round, which is
over; the first one staged three primaries for the next. -/
def beforeLongFill : List Move :=
  [.call (.client 0) (.submit .noop), .advance, .advance,
    .call (.client 0) (.submit .noop), .advance, .advance,
    .call (.unit ⟨0⟩) (.reconfigure (.primaries 3)),
    .advance, .advance, .advance, .advance, .advance,
    .call (.unit ⟨1⟩) .turn, .advance, .advance,
    .call (.unit ⟨0⟩) .turn, .advance, .advance, .advance, .advance,
    .call (.unit ⟨1⟩) .turn, .advance, .advance]

/-- The moves by which the second thread closes the first round and sleeps for want of a third
thread, while the first one takes its turn in the round that is being filled and retires; then the
third one comes and is chosen. -/
def longFill : List Move :=
  [.advance, .advance, .advance, .advance,
    .enter (.unit ⟨0⟩), .advance, .advance,
    .call (.unit ⟨0⟩) .retire, .advance, .advance, .advance,
    .call (.client 0) (.submit .noop), .advance, .advance,
    .enter (.unit ⟨1⟩), .advance]

/-- The long fill leaves a round that is open, because the third thread can make progress, and it is
the only one that the second thread began. -/
theorem one_filler_one_close_longFill :
    ∃ sys last next, System.run? { primaries := 2 } (fun _ => true) beforeLongFill = some sys ∧
      sys.phase? (.unit ⟨1⟩) = some (.check (.awaitRoundEnd .turn)) ∧
      sys.follow? (fun _ => true) longFill = some last ∧ System.Step last next ∧
      next.state.primaries = [⟨0⟩, ⟨1⟩, ⟨2⟩] ∧ next.state.hasTerminated ⟨0⟩ = true ∧
      ¬ next.state.Closeable ∧ sys.state.round = 1 ∧ next.state.round ≤ 2 := by
  obtain ⟨sys, last, next, hsys, hcheck, hlast, hlook, hmove, hround, hfill, hended, hprimaries,
      hterminated⟩ : ∃ sys last next,
      System.run? { primaries := 2 } (fun _ => true) beforeLongFill = some sys ∧
      sys.phase? (.unit ⟨1⟩) = some (.check (.awaitRoundEnd .turn)) ∧
      sys.follow? (fun _ => true) longFill = some last ∧
      sys.staysLooking (fun _ => true) ⟨1⟩ (.awaitRoundEnd .turn) longFill = true ∧
      last.move? (fun _ => true) .advance = some next ∧ sys.state.round = 1 ∧
      (last.fill? (.unit ⟨1⟩)).isSome ∧ next.fill? (.unit ⟨1⟩) = none ∧
      next.state.primaries = [⟨0⟩, ⟨1⟩, ⟨2⟩] ∧ next.state.hasTerminated ⟨0⟩ = true :=
    ⟨_, _, _, rfl, rfl, rfl, rfl, rfl, rfl, rfl, rfl, rfl, rfl⟩
  have hreach := System.reachable_of_run? hsys
  have hs : System.Step last next := ⟨_, _, hmove⟩
  obtain ⟨-, -, -, hloop⟩ := one_filler_one_close hreach
  obtain ⟨-, -, hends, -⟩ := one_filler_one_close (hreach.path (System.path_of_follow? hlast))
  obtain ⟨-, hnext⟩ := hloop ⟨1⟩ _ last hcheck (System.lookPath_of_follow? hlast hlook)
  have hone : next.state.round ≤ sys.state.round + 1 := hnext next hs
  rw [hround] at hone
  exact ⟨sys, last, next, hsys, hcheck, hlast, hs, hprimaries, hterminated,
    (hends next _ hs hfill hended).2.2, hround, hone⟩

end RoundScheduler
