import RoundScheduler.Proofs.Invariant

/-!
# Rounds do not get stuck

When nobody can go on, a scheduler waits for the world outside of it: for more threads, if the round
is not filled, and otherwise for a primary that is busy outside of the scheduler or that waits for
one of its own submissions to be admitted. In particular a filled round never has all its primaries
asleep inside the operations that need turns. Nothing is assumed about the order of moves, about the
number of threads and submitters, or about the rule of eligibility, which may change from one move
to the next.
-/

namespace RoundScheduler

open State

namespace System

/-- Nobody can go on: whoever is in an operation would only fall asleep. -/
def IsStuck (sys : System) (eligible : ThreadId → Bool) : Prop :=
  ∀ a, sys.canProceed eligible a = false

/-- A thread is outside of all operations, or one of its own submissions waits for admission. -/
def IsBusyOutside (sys : System) (t : ThreadId) : Prop :=
  sys.calls.get? (.unit t) = none ∨
    ∃ t' w k, sys.submission? (.unit t) = some (.awaitAdmission t' w k)

/-- The round lacks primaries, and exactly one thread fills it, at the end of the list. -/
def AwaitsThreads (sys : System) : Prop :=
  sys.state.primaries.length < sys.state.live.primaries ∧
    ∃ t plan, sys.fill? (.unit t) = some (sys.state.threadList.length, plan) ∧
      ∀ a, (sys.fill? a).isSome → a = .unit t

/-- The round is filled, nobody fills it any more, and one of its primaries, which has not retired,
is busy outside of the operations that need turns. -/
def AwaitsPrimary (sys : System) : Prop :=
  sys.state.primaries.length = sys.state.live.primaries ∧ (∀ a, sys.fill? a = none) ∧
    ∃ t ∈ sys.state.primaries, sys.isAlive (.unit t) = true ∧ sys.IsBusyOutside t

/-- A thread that is busy outside stands at no place of an operation that needs its turn. -/
lemma IsBusyOutside.phase?_eq_none {sys : System} {t : ThreadId} (h : sys.IsBusyOutside t) :
    sys.phase? (.unit t) = none := by
  rcases h with hcall | ⟨t', w, k, hsubmission⟩
  · rw [phase?, hcall]
    rfl
  · obtain ⟨⟨op, point⟩, hcall, hpoint⟩ := Option.bind_eq_some_iff.mp hsubmission
    cases point with
    | thread u ph => cases hpoint
    | submission p =>
      rw [phase?, hcall]
      rfl

end System

namespace Invariant

variable {c : Config} {sys : System} {a : Agent} {t : ThreadId} {eligible : ThreadId → Bool}

/-- Whoever is in an operation when nobody can go on would fall asleep. -/
lemma outcome_eq_sleep (hstuck : sys.IsStuck eligible) {call : Call}
    (hcall : sys.calls.get? a = some call) : sys.outcome eligible call = .sleep := by
  have ha := hstuck a
  rw [System.canProceed, hcall] at ha
  cases ho : sys.outcome eligible call with
  | sleep => rfl
  | _ => simp [ho, Outcome.isSleep] at ha

/-- A thread would fall asleep in one of the listed ways. -/
lemma stretch_sleep (h : Invariant sys) (hstuck : sys.IsStuck eligible) {op : Operation}
    {ph : Phase} (hcall : sys.calls.get? (.unit t) = some ⟨op, .thread t ph⟩) :
    Stretch eligible sys.state t ph .sleep := by
  obtain ⟨-, -, -, halive, hlocks⟩ := (hcall ▸ h.placed (.unit t)).of_thread
  have hme : ph.leaving = false → (sys.state.record? t).isSome := fun hph => by
    obtain ⟨r, hr, -⟩ := exists_record_of_isAlive (halive hph)
    simp [hr]
  have hsleep : ph.step eligible t sys.state = .sleep := outcome_eq_sleep hstuck hcall
  exact hsleep ▸ Phase.stretch_step h.sound hme hlocks

/-- Whoever fills a round and sleeps has seen the whole list and still lacks primaries. -/
lemma fill_index_of_stuck (h : Invariant sys) (hstuck : sys.IsStuck eligible) {index : Nat}
    {plan : RoundConfig} (ha : sys.fill? a = some (index, plan)) :
    ∃ t, a = .unit t ∧ index = sys.state.threadList.length ∧
      sys.state.primaries.length < sys.state.live.primaries := by
  obtain ⟨ph, hph, hfill⟩ := Option.bind_eq_some_iff.mp ha
  obtain ⟨⟨op, point⟩, hcall, hpoint⟩ := Option.bind_eq_some_iff.mp hph
  cases point with
  | submission p => cases hpoint
  | thread t ph' =>
    cases hpoint
    obtain ⟨rfl, -⟩ := (hcall ▸ h.placed a).of_thread
    have hfilling := (h.fillers.filling _ index plan ha).1
    have hsleep := h.stretch_sleep hstuck hcall
    cases ph with
    | fill index' plan' k =>
      cases hfill
      cases hsleep with
      | runOut _ _ _ hlen hindex =>
        exact ⟨t, rfl, Nat.le_antisymm hfilling.index_le hindex, hfilling.primaries ▸ hlen⟩
    | _ => cases hfill

/-- A primary of a filled round that can make progress is asleep in none of the operations that need
turns. -/
lemma isBusyOutside_of_stuck (h : Invariant sys) (hstuck : sys.IsStuck eligible)
    (hfull : sys.state.live.primaries ≤ sys.state.primaries.length) (ht : t ∈ sys.state.primaries)
    (hcan : sys.state.canProgress t = true) : sys.IsBusyOutside t := by
  have hflags : ∀ r, sys.state.record? t = some r →
      r.finished = false ∧ r.waitingForTurn = false ∧ r.enqueued = none := by
    intro r hr
    simp only [State.canProgress, hr, Option.any_some, ThreadRecord.canProgress, Bool.and_eq_true,
      Bool.not_eq_true', Option.isNone_iff_eq_none] at hcan
    exact ⟨hcan.1.2, hcan.2, hcan.1.1.2⟩
  cases hcall : sys.calls.get? (.unit t) with
  | none => exact .inl hcall
  | some call =>
    obtain ⟨op, point⟩ := call
    cases point with
    | thread u ph =>
      obtain ⟨hu, -⟩ := (hcall ▸ h.placed (.unit t)).of_thread
      cases hu
      exfalso
      cases h.stretch_sleep hstuck hcall with
      | sleepForSeat p hme => exact hme ht
      | sleepForEnd p r hr hfinished => simp [hflags r hr] at hfinished
      | sleepForTurn p r hr hwaiting => simp [hflags r hr] at hwaiting
      | sleepInQueue l k r hk howner hr hqueued => simp [hflags r hr] at hqueued
      | runOut index plan k hlen hindex =>
        have hfilling := (h.fillers.filling (.unit t) index plan
          (by simp [System.fill?, System.phase?, hcall, Point.phase?, Phase.fill?])).1
        exact absurd hfull (Nat.not_le.mpr (hfilling.primaries ▸ hlen))
      | sleepForRetirement hme => exact hme ht
    | submission p =>
      have hsubmission : sys.submission? (.unit t) = some p := by
        simp [System.submission?, hcall, Point.submission?]
      have hp : ∀ u, p.thread? = some u → (sys.state.record? u).isSome := fun u hu => by
        rw [isSome_record?_iff, h.submitters.unstarted _ p u hsubmission hu]
        rfl
      have hsleep : p.step sys.config sys.state = .sleep := outcome_eq_sleep hstuck hcall
      cases hsleep ▸ Submission.intake_step (c := sys.config) h.sound hp with
      | sleepForAdmission u w k r hr hadmitted => exact .inr ⟨u, w, k, hsubmission⟩

/-- A filled round at which nobody looks has a primary that can make progress. -/
lemma exists_canProgress_of_stuck (h : Invariant sys) (hstuck : sys.IsStuck eligible)
    (hfull : sys.state.live.primaries ≤ sys.state.primaries.length) :
    ∃ t ∈ sys.state.primaries, sys.state.canProgress t = true := by
  rcases h.watched hfull with hcan | ⟨a, ph, -, hph, hchecks⟩
  · exact hcan
  · obtain ⟨⟨op, point⟩, hcall, hpoint⟩ := Option.bind_eq_some_iff.mp hph
    cases point with
    | submission p => cases hpoint
    | thread t ph' =>
      cases hpoint
      obtain ⟨rfl, -⟩ := (hcall ▸ h.placed a).of_thread
      -- Whoever looks at a round does not fall asleep there.
      cases h.stretch_sleep hstuck hcall <;> cases hchecks

/-- A primary that can make progress has not retired. -/
lemma isAlive_of_canProgress (h : Invariant sys) (ht : t ∈ sys.state.primaries)
    (hcan : sys.state.canProgress t = true) : sys.isAlive (.unit t) = true := by
  obtain ⟨r, hr, hp⟩ := (h.sound.seating.mem_iff t).mp ht
  have hstarted := h.sound.seating.started t r hr hp
  simp only [State.canProgress, hr, Option.any_some, ThreadRecord.canProgress, Bool.and_eq_true,
    Bool.not_eq_true'] at hcan
  simp [System.isAlive, hr, hstarted, hcan.1.1.1]

end Invariant

/-- When nobody can go on after the first round began, the scheduler waits for more threads or for a
primary that is busy elsewhere; a filled round has a primary that is asleep in none of the
operations that need turns. -/
theorem awaits_threads_or_primary {c : Config} {sys : System} {eligible : ThreadId → Bool}
    (h : System.Reachable c sys) (hstuck : sys.IsStuck eligible) (hround : 1 ≤ sys.state.round) :
    (sys.AwaitsThreads ∨ sys.AwaitsPrimary) ∧
      (sys.state.primaries.length = sys.state.live.primaries →
        ∃ t ∈ sys.state.primaries, sys.phase? (.unit t) = none) := by
  have hinv := Invariant.of_reachable h
  have hbusy : sys.state.live.primaries ≤ sys.state.primaries.length →
      ∃ t ∈ sys.state.primaries, sys.isAlive (.unit t) = true ∧ sys.IsBusyOutside t := by
    intro hfull
    obtain ⟨t, ht, hcan⟩ := hinv.exists_canProgress_of_stuck hstuck hfull
    exact ⟨t, ht, hinv.isAlive_of_canProgress ht hcan,
      hinv.isBusyOutside_of_stuck hstuck hfull ht hcan⟩
  constructor
  · rcases Nat.lt_or_ge sys.state.primaries.length sys.state.live.primaries with hlen | hfull
    · obtain ⟨a, ha⟩ := hinv.fillers.exists_filler (Nat.one_le_iff_ne_zero.mp hround) hlen
      obtain ⟨⟨index, plan⟩, ha⟩ := Option.isSome_iff_exists.mp ha
      obtain ⟨t, rfl, rfl, -⟩ := hinv.fill_index_of_stuck hstuck ha
      exact .inl ⟨hlen, t, plan, ha, fun b hb => hinv.fillers.unique b _ hb (by simp [ha])⟩
    · have hnone : ∀ a, sys.fill? a = none := fun a => by
        cases ha : sys.fill? a with
        | none => rfl
        | some fill =>
          obtain ⟨index, plan⟩ := fill
          obtain ⟨-, -, -, hlen⟩ := hinv.fill_index_of_stuck hstuck ha
          exact absurd hlen (Nat.not_lt.mpr hfull)
      exact .inr ⟨Nat.le_antisymm hinv.sound.seating.length_le hfull, hnone, hbusy hfull⟩
  · intro hfull
    obtain ⟨t, ht, -, hoff⟩ := hbusy (Nat.le_of_eq hfull.symm)
    exact ⟨t, ht, hoff.phase?_eq_none⟩

/-- The moves of a lone thread that is submitted, takes the only step of the first round, and goes
on outside of the scheduler. -/
def loneTurn : List Move :=
  [.call (.client 0) (.submit .noop), .advance, .advance,
    .call (.unit ⟨0⟩) .turn, .advance, .advance, .advance, .advance]

/-- After its turn the lone thread is the primary that the scheduler waits for. -/
theorem awaits_primary_after_loneTurn :
    ∃ sys, System.run? {} (fun _ => true) loneTurn = some sys ∧
      sys.state.primaries = [⟨0⟩] ∧ (sys.AwaitsThreads ∨ sys.AwaitsPrimary) := by
  obtain ⟨sys, hrun, hcalls, hround, hprimaries⟩ : ∃ sys,
      System.run? {} (fun _ => true) loneTurn = some sys ∧ sys.calls = ∅ ∧ sys.state.round = 1 ∧
        sys.state.primaries = [⟨0⟩] := ⟨_, rfl, rfl, rfl, rfl⟩
  have hstuck : sys.IsStuck fun _ => true := fun a => by simp [System.canProceed, hcalls]
  exact ⟨sys, hrun, hprimaries,
    (awaits_threads_or_primary (System.reachable_of_run? hrun) hstuck (by omega)).1⟩

end RoundScheduler
