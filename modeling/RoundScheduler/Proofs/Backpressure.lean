import RoundScheduler.Proofs.Admission
import RoundScheduler.Proofs.Formation
import RoundScheduler.Proofs.Reconfiguration

/-!
# How long the list is while submitters wait

A submitter is held back while the list is longer than a bound that depends on the number of live
primaries. That number changes with the rounds, while submitters are let through only by a round
that removes somebody, and then all of them at once. This file says what remains true of the two
sides of the bound. Submitters wait only while the list is too long, until a round begins with more
primaries than the last one; and the list is not too long when a thread is listed, unless the thread
was held back before.
-/

namespace RoundScheduler

open State

/-! ### The bound -/

namespace Config

variable {c : Config} {m n : Nat}

/-- More primaries allow for more listed threads. -/
lemma admissionBound_mono (h : m ≤ n) : c.admissionBound m ≤ c.admissionBound n := by
  have hmul : c.admissionFactor * m ≤ c.admissionFactor * n := Nat.mul_le_mul_left _ h
  simp only [admissionBound, Word.satAdd, Word.satMul]
  omega

/-- There is room for all primaries, if there is room for one thread per primary. -/
lemma le_admissionBound (hfactor : 1 ≤ c.admissionFactor) (hn : n ≤ Word.max) :
    n ≤ c.admissionBound n := by
  have hmul : n ≤ c.admissionFactor * n := Nat.le_mul_of_pos_left n hfactor
  simp only [admissionBound, Word.satAdd, Word.satMul]
  omega

end Config

/-! ### The number of primaries -/

/-- More primaries than a row of words can hold are refused. -/
lemma RoundConfig.lt_rowLimit {n steps : Nat} {r : RoundConfig} (h : roundRobin n steps = .ok r) :
    n < Word.rowLimit := by
  unfold roundRobin at h
  cases hcheck : EmptyRound.check n steps with
  | error e => simp [hcheck] at h
  | ok u =>
    by_contra hlimit
    simp [hcheck, hlimit] at h

namespace Schedule

variable {c : Config} {s : Schedule}

/-- No round up to the given one has more primaries than the round before. -/
def NeverGrows (c : Config) (s : Schedule) (round : Nat) : Prop :=
  ∀ k < round, (s.inForce c (k + 1)).1 ≤ (s.inForce c k).1

/-- Before the first round the configuration of the scheduler is in force. -/
lemma inForce_zero : s.inForce c 0 = (c.primaries, c.stepsPerPrimary) := by
  have hnothing : s.events.filterMap (Event.stagedBefore? 0) = [] :=
    List.filterMap_eq_nil_iff.mpr fun _ _ => stagedBefore?_of_le (Nat.zero_le _)
  rw [inForce, hnothing]
  rfl

/-- As long as their number does not grow, there are never more primaries than in the
beginning. -/
lemma NeverGrows.le_primaries {round k : Nat} (h : s.NeverGrows c round) (hk : k ≤ round) :
    (s.inForce c k).1 ≤ c.primaries := by
  induction k with
  | zero => exact Nat.le_of_eq (congrArg Prod.fst inForce_zero)
  | succ k ih => exact Nat.le_trans (h k hk) (ih (Nat.le_of_succ_le hk))

end Schedule

namespace System

variable {c : Config} {sys sys' before after : System}

/-- Within a round the number of primaries stays the same. -/
lemma Step.live_primaries_eq (h : Reachable c before) (hs : Step before after)
    (hround : after.state.round = before.state.round) :
    after.state.live.primaries = before.state.live.primaries := by
  have hinv := Invariant.of_reachable h
  rcases hinv.effect hs with ⟨w, hchange⟩ | harrival
  · cases hchange.gate hinv.sound with
    | keep _ _ _ hlive => exact hlive
    | begin hnext | letThrough hnext => omega
  · exact harrival.settled.live

/-- The number of primaries is the one in force, also before the first round. -/
lemma Reachable.live_primaries (h : Reachable c sys) :
    sys.state.live.primaries = (sys.state.journal.schedule.inForce c sys.state.round).1 := by
  induction h using Reachable.induction with
  | initial sys hstart =>
    have hstaged := (Planned.initial hstart).staged
    obtain ⟨rounds, -, rfl⟩ := Invariant.exists_rounds_of_initial hstart
    exact congrArg RoundConfig.primaries hstaged
  | step sys sys' hreach hs ih =>
    rcases round_of_step hreach hs with hsame | ⟨hnext, -, hlive, hevents⟩
    · rw [hs.live_primaries_eq hreach hsame, ih, hsame,
        Path.inForce_eq hreach (.single hs) (Nat.le_refl _)]
    · have hschedule : sys'.state.journal.schedule = sys.state.journal.schedule :=
        congrArg Schedule.mk hevents
      rw [hlive, (Planned.of_reachable hreach).staged, hnext, hschedule]
      rfl

/-- A scheduler can only be built for fewer primaries than a row of words can hold. -/
lemma Reachable.primaries_lt (h : Reachable c sys) : c.primaries < Word.rowLimit := by
  obtain ⟨start, hstart, -⟩ := h
  cases hrounds : RoundConfig.roundRobin c.primaries c.stepsPerPrimary with
  | error e => simp [initial, State.initial, hrounds, Except.map] at hstart
  | ok rounds => exact RoundConfig.lt_rowLimit hrounds

/-- What was so of the rounds up to one that was begun is so later. -/
lemma Step.inForce_eq (h : Reachable c before) (hs : Step before after) {k : Nat}
    (hk : k ≤ before.state.round) : after.state.journal.schedule.inForce c k =
      before.state.journal.schedule.inForce c k :=
  Path.inForce_eq h (.single hs) hk

/-- A move does not go back to an earlier round. -/
lemma Step.round_le (h : Reachable c before) (hs : Step before after) :
    before.state.round ≤ after.state.round := by
  rcases round_of_step h hs with heq | ⟨heq, -⟩ <;> omega

end System

/-! ### Who is held back -/

/-- Threads are held back only while the list is longer than the bound. -/
def State.HoldsAboveBound (c : Config) (s : State) : Prop :=
  s.admissionQueue ≠ [] → c.admissionBound s.live.primaries < s.threadList.length

namespace System

variable {c : Config} {sys sys' : System}

/-- This is kept by every move, except for the start of a round that removes nobody and has more
primaries than the last one. -/
lemma Step.holdsAboveBound_or (h : Reachable c sys) (hs : Step sys sys')
    (hholds : sys.state.HoldsAboveBound c) : sys'.state.HoldsAboveBound c ∨
      sys'.state.round = sys.state.round + 1 ∧ sys'.state.threadList = sys.state.threadList ∧
        sys.state.live.primaries < sys'.state.live.primaries := by
  have hinv := Invariant.of_reachable h
  have hkept : sys'.state.admissionQueue = sys.state.admissionQueue →
      sys.state.threadList.length ≤ sys'.state.threadList.length →
      sys'.state.live.primaries ≤ sys.state.live.primaries → sys'.state.HoldsAboveBound c := by
    intro hqueue hlength hlive hheld
    have hlong := hholds (hqueue ▸ hheld)
    have hbound := c.admissionBound_mono hlive
    omega
  rcases hinv.listing hs with ⟨w, hchange⟩ | ⟨harrival, hcases⟩
  · cases hchange.gate hinv.sound with
    | keep hround hlist hqueue hlive =>
      exact .inl (hkept hqueue (Nat.le_of_eq (by rw [hlist])) (Nat.le_of_eq hlive))
    | begin hround hlist hqueue hlive =>
      by_cases hgrows : sys.state.live.primaries < sys'.state.live.primaries
      · exact .inr ⟨hround, hlist, hgrows⟩
      · exact .inl (hkept hqueue (Nat.le_of_eq (by rw [hlist])) (Nat.le_of_not_lt hgrows))
    | letThrough hround hlist hqueue => exact .inl fun hheld => absurd hqueue hheld
  · have hlive := harrival.settled.live
    rcases hcases with ⟨hlist, hqueue | hfull⟩ | ⟨a, t, w, k, -, hstate⟩
    · exact .inl (hkept hqueue (Nat.le_of_eq (by rw [hlist])) (Nat.le_of_eq hlive))
    · refine .inl fun _ => ?_
      rw [hlive, hlist]
      simpa [isFull, h.config_eq] using hfull
    · have hlength : sys.state.threadList.length ≤ sys'.state.threadList.length :=
        harrival.settled.threadList.length_le
      exact .inl (hkept (by rw [hstate]; rfl) hlength (Nat.le_of_eq hlive))

/-- So it holds until a round has more primaries than the one before. -/
lemma Reachable.holdsAboveBound (h : Reachable c sys)
    (hshrinks : sys.state.journal.schedule.NeverGrows c sys.state.round) :
    sys.state.HoldsAboveBound c := by
  induction h using Reachable.induction with
  | initial sys hstart =>
    obtain ⟨rounds, -, rfl⟩ := Invariant.exists_rounds_of_initial hstart
    exact fun hheld => absurd rfl hheld
  | step sys sys' hreach hs ih =>
    have hle := hs.round_le hreach
    have hbefore : sys.state.journal.schedule.NeverGrows c sys.state.round := fun k hk => by
      rw [← hs.inForce_eq hreach hk, ← hs.inForce_eq hreach (Nat.le_of_lt hk)]
      exact hshrinks k (Nat.lt_of_lt_of_le hk hle)
    refine (hs.holdsAboveBound_or hreach (ih hbefore)).resolve_right ?_
    rintro ⟨hround, -, hgrows⟩
    have hlast := hshrinks sys.state.round (by omega)
    rw [← hround, ← (hreach.step hs).live_primaries, hs.inForce_eq hreach (Nat.le_refl _),
      ← hreach.live_primaries] at hlast
    omega

end System

/-- Threads are held back only while the list is longer than the bound, until a round begins that
removes nobody and has more primaries than the last one; only the start of such a round lets threads
wait below the bound. So while the number of primaries does not grow, and everybody may become a
primary and the bound leaves room for all of them, nobody is held back while a round lacks
threads. -/
theorem held_back_above_bound_until_growth {c : Config} {sys : System}
    (h : System.Reachable c sys) :
    (∀ sys', System.Step sys sys' → sys.state.HoldsAboveBound c →
      ¬sys'.state.HoldsAboveBound c → sys'.state.round = sys.state.round + 1 ∧
        sys'.state.threadList = sys.state.threadList ∧
        sys.state.live.primaries < sys'.state.live.primaries) ∧
    (sys.state.journal.schedule.NeverGrows c sys.state.round →
      (sys.state.admissionQueue ≠ [] →
        c.admissionBound sys.state.live.primaries < sys.state.threadList.length) ∧
      (System.ReachableUnder c (fun _ => true) sys → 1 ≤ c.admissionFactor →
        ∀ a index plan, sys.fill? a = some (index, plan) →
          sys.state.primaries.length < plan.primaries → sys.state.threadList.length ≤ index →
          sys.state.admissionQueue = [])) := by
  refine ⟨fun sys' hs hholds hbroken => (hs.holdsAboveBound_or h hholds).resolve_left hbroken,
    fun hshrinks => ⟨h.holdsAboveBound hshrinks, ?_⟩⟩
  intro hunder hfactor a index plan hfill hlacks hout
  by_contra hheld
  have hlong := h.holdsAboveBound hshrinks hheld
  -- Everybody on the list is a primary, so the list is shorter than the bound.
  have hchosen := (Selective.of_reachable hunder).formed.filling a index plan hfill
  rw [List.filter_true, List.take_of_length_le hout] at hchosen
  have hplan := ((Invariant.of_reachable h).fillers.filling a index plan hfill).1.primaries
  have hlimit : sys.state.live.primaries ≤ Word.max := by
    have hfits : Word.rowLimit ≤ Word.max := by decide
    have hsmall := h.primaries_lt
    have hle := hshrinks.le_primaries (Nat.le_refl sys.state.round)
    rw [← h.live_primaries] at hle
    omega
  have hroom := Config.le_admissionBound hfactor hlimit
  rw [hchosen, hplan] at hlacks
  omega

/-! ### Threads that wait below the bound -/

/-- The moves by which two threads are listed and a third one is held back, and the first one takes
a turn. -/
def backlogMoves : List Move :=
  [.call (.client 0) (.submit .noop), .advance, .advance,
    .call (.client 0) (.submit .noop), .advance, .advance,
    .call (.client 1) (.submit .noop), .advance, .advance,
    .call (.unit ⟨0⟩) .turn, .advance, .advance, .advance, .advance]

/-- In the first round the number of primaries has not grown, so the list is longer than the bound
while the third thread is held back. -/
theorem held_back_above_bound_until_growth_backlog :
    ∃ sys, System.run? narrowConfig (fun _ => true) backlogMoves = some sys ∧
      sys.state.round = 1 ∧ sys.state.admissionQueue = [⟨2⟩] ∧
      narrowConfig.admissionBound sys.state.live.primaries < sys.state.threadList.length := by
  obtain ⟨sys, hrun, hround, hforce, hqueue⟩ : ∃ sys,
      System.run? narrowConfig (fun _ => true) backlogMoves = some sys ∧ sys.state.round = 1 ∧
      (sys.state.journal.schedule.inForce narrowConfig 1).1 = 1 ∧
      sys.state.admissionQueue = [⟨2⟩] := ⟨_, rfl, rfl, rfl, rfl⟩
  have hshrinks : sys.state.journal.schedule.NeverGrows narrowConfig sys.state.round := by
    intro k hk
    obtain rfl : k = 0 := by omega
    rw [hforce, Schedule.inForce_zero]
    decide
  have hbound := (held_back_above_bound_until_growth (System.reachable_of_run? hrun)).2 hshrinks
  exact ⟨sys, hrun, hround, hqueue, hbound.1 (by simp [hqueue])⟩

/-- After `growthMoves` the second round lacks a thread, while one is held back. -/
theorem exists_held_back_below_bound :
    ∃ sys, System.ReachableUnder narrowConfig (fun _ => true) sys ∧ sys.inside = none ∧
      sys.state.admissionQueue = [⟨2⟩] ∧
      sys.state.threadList.length ≤ narrowConfig.admissionBound sys.state.live.primaries ∧
      ∃ plan, sys.fill? (.unit ⟨0⟩) = some (2, plan) ∧
        sys.state.primaries.length < plan.primaries ∧ sys.state.threadList.length ≤ 2 := by
  obtain ⟨sys, plan, hrun, hinside, hqueue, hlength, hlive, hfill, hplan, hprimaries⟩ :
      ∃ sys plan, System.run? narrowConfig (fun _ => true) growthMoves = some sys ∧
      sys.inside = none ∧ sys.state.admissionQueue = [⟨2⟩] ∧ sys.state.threadList.length = 2 ∧
      sys.state.live.primaries = 3 ∧ sys.fill? (.unit ⟨0⟩) = some (2, plan) ∧
      plan.primaries = 3 ∧ sys.state.primaries.length = 2 :=
    ⟨_, _, rfl, rfl, rfl, rfl, rfl, rfl, rfl, rfl⟩
  refine ⟨sys, System.reachableUnder_of_run? hrun, hinside, hqueue, ?_, plan, hfill, ?_, ?_⟩
  · rw [hlength, hlive]
    decide
  · omega
  · omega

/-! ### The length of the list -/

namespace State

variable {s s' : State} {t : ThreadId}

/-- The number of listed threads that were not held back. -/
def promptCount (s : State) : Nat := s.threadList.countP fun t => !s.isAdmitted t

/-- It grows only when a thread is listed. -/
lemma Remains.promptCount_le (h : Remains s s') : s'.promptCount ≤ s.promptCount := by
  have hmono : s'.threadList.countP (fun t => !s'.isAdmitted t) ≤
      s'.threadList.countP (fun t => !s.isAdmitted t) :=
    List.countP_mono_left fun u hu hheld => by
      cases hadmitted : s.isAdmitted u with
      | true => simp [h.admitted u hu hadmitted] at hheld
      | false => rfl
  exact Nat.le_trans hmono h.list.countP_le

/-- It grows by one when a thread is listed that was not held back. -/
lemma promptCount_list (w : Work) :
    (s.list t w).promptCount = s.promptCount + if s.isAdmitted t then 0 else 1 := by
  have hlist : (s.list t w).threadList = s.threadList ++ [t] := rfl
  have hflags : ∀ u, (s.list t w).isAdmitted u = s.isAdmitted u := fun _ =>
    Submitters.isAdmitted_list w
  rw [promptCount, hlist, List.countP_append, funext fun u => congrArg (!·) (hflags u), promptCount]
  cases hadmitted : s.isAdmitted t <;> simp [hadmitted]

end State

namespace System

variable {c : Config} {sys sys' : System}

/-- When a thread is listed that was not held back, the list is not longer than the bound. -/
lemma Reachable.length_le_of_prompt (h : Reachable c sys) {a : Agent} {t : ThreadId} {w : Work}
    {k : AfterListing} (hplace : sys.submission? a = some (.list t w k))
    (hprompt : sys.state.isAdmitted t = false) :
    sys.state.threadList.length ≤ c.admissionBound sys.state.live.primaries := by
  have hroom := (Prompt.of_reachable h a t w k hplace hprompt).2.1
  simpa [isFull, h.config_eq] using hroom

/-- While there are never more than `n` primaries, the threads that were not held back are at most
one more than the bound for `n` primaries. -/
lemma Reachable.promptCount_le (h : Reachable c sys) {n : Nat}
    (hn : ∀ k ≤ sys.state.round, (sys.state.journal.schedule.inForce c k).1 ≤ n) :
    sys.state.promptCount ≤ c.admissionBound n + 1 := by
  induction h using Reachable.induction with
  | initial sys hstart =>
    obtain ⟨rounds, -, rfl⟩ := Invariant.exists_rounds_of_initial hstart
    exact Nat.zero_le _
  | step sys sys' hreach hs ih =>
    have hle := hs.round_le hreach
    have hbefore : ∀ k ≤ sys.state.round,
        (sys.state.journal.schedule.inForce c k).1 ≤ n := fun k hk => by
      rw [← hs.inForce_eq hreach hk]
      exact hn k (Nat.le_trans hk hle)
    have hcount := ih hbefore
    rcases (Invariant.of_reachable hreach).remains_or_lists hs with
      hremains | ⟨a, t, w, k, hplace, hstate⟩
    · exact Nat.le_trans hremains.promptCount_le hcount
    · rw [hstate, promptCount_list]
      cases hadmitted : sys.state.isAdmitted t with
      | true => simpa using hcount
      | false =>
        have hlive : sys.state.live.primaries ≤ n :=
          hreach.live_primaries ▸ hbefore _ (Nat.le_refl _)
        have hlength := hreach.length_le_of_prompt hplace hadmitted
        have hbound := c.admissionBound_mono hlive
        have hshort : sys.state.promptCount ≤ sys.state.threadList.length := List.countP_le_length
        simp only [Bool.false_eq_true, if_false]
        omega

end System

/-- When a thread is listed that was not held back, the list is at most as long as the bound at that
instant. So while there are never more than `n` primaries, the list holds at most one thread more
than the bound for `n` primaries, those not counted that were held back. -/
theorem length_le_bound_unless_held_back {c : Config} {sys : System}
    (h : System.Reachable c sys) :
    (∀ sys' t, System.Step sys sys' →
      sys'.state.threadList = sys.state.threadList ++ [t] → sys.state.isAdmitted t = false →
      sys.state.threadList.length ≤ c.admissionBound sys.state.live.primaries) ∧
    ∀ n, (∀ k ≤ sys.state.round, (sys.state.journal.schedule.inForce c k).1 ≤ n) →
      sys.state.threadList.length ≤
        c.admissionBound n + 1 + sys.state.threadList.countP sys.state.isAdmitted := by
  constructor
  · intro sys' t hs hlist hprompt
    rcases (Invariant.of_reachable h).remains_or_lists hs with
      hremains | ⟨a, u, w, k, hplace, hstate⟩
    · have hlength := hremains.list.length_le
      simp only [hlist, List.length_append, List.length_singleton] at hlength
      omega
    · have hlisted : sys.state.threadList ++ [u] = sys.state.threadList ++ [t] := by
        rw [← hlist, hstate]
        rfl
      obtain rfl : u = t := by simpa using hlisted
      exact h.length_le_of_prompt hplace hprompt
  · intro n hn
    have hcount := h.promptCount_le hn
    have hsplit := List.length_eq_countP_add_countP sys.state.isAdmitted (l := sys.state.threadList)
    have hprompt : sys.state.promptCount =
        sys.state.threadList.countP fun t => ¬sys.state.isAdmitted t = true := by
      simp [promptCount]
    omega

/-! ### Threads that are listed above the bound -/

/-- The moves by which two threads are listed and two more are held back; the first one takes a turn
and retires, and the next round lets both of the others through. -/
def crowdMoves : List Move :=
  [.call (.client 0) (.submit .noop), .advance, .advance,
    .call (.client 0) (.submit .noop), .advance, .advance,
    .call (.client 1) (.submit .noop), .advance, .advance,
    .call (.client 2) (.submit .noop), .advance, .advance,
    .call (.unit ⟨0⟩) .turn, .advance, .advance, .advance, .advance,
    .call (.unit ⟨0⟩) .retire, .advance, .advance, .advance, .advance, .advance, .advance,
    .enter (.client 1), .advance, .advance, .enter (.client 2), .advance, .advance]

/-- There is one primary all the time, and the list holds two threads more than the bound, both of
which were held back. -/
theorem length_le_bound_unless_held_back_crowd :
    ∃ sys, System.run? narrowConfig (fun _ => true) crowdMoves = some sys ∧
      sys.state.threadList = [⟨1⟩, ⟨2⟩, ⟨3⟩] ∧ narrowConfig.admissionBound 1 = 1 ∧
      sys.state.threadList.length ≤
        narrowConfig.admissionBound 1 + 1 + sys.state.threadList.countP sys.state.isAdmitted := by
  obtain ⟨sys, hrun, hround, hfirst, hsecond, hlist⟩ : ∃ sys,
      System.run? narrowConfig (fun _ => true) crowdMoves = some sys ∧ sys.state.round = 2 ∧
      (sys.state.journal.schedule.inForce narrowConfig 1).1 = 1 ∧
      (sys.state.journal.schedule.inForce narrowConfig 2).1 = 1 ∧
      sys.state.threadList = [⟨1⟩, ⟨2⟩, ⟨3⟩] := ⟨_, rfl, rfl, rfl, rfl, rfl⟩
  have hone : ∀ k ≤ sys.state.round,
      (sys.state.journal.schedule.inForce narrowConfig k).1 ≤ 1 := by
    intro k hk
    obtain rfl | rfl | rfl : k = 0 ∨ k = 1 ∨ k = 2 := by omega
    · rw [Schedule.inForce_zero]
      decide
    · exact Nat.le_of_eq hfirst
    · exact Nat.le_of_eq hsecond
  have hlength := (length_le_bound_unless_held_back (System.reachable_of_run? hrun)).2 1 hone
  exact ⟨sys, hrun, hlist, by decide, hlength⟩

/-- A scheduler for rounds of three primaries, with room for one listed thread per primary and for
one more. -/
def fullConfig : Config := { primaries := 3, admissionFactor := 1, admissionSlack := 0 }

/-- The moves by which four threads are listed and a fifth one is held back; the first one asks for
one primary and the third one retires. The next round lets the fifth one through, which is about to
be listed. -/
def shrinkMoves : List Move :=
  [.call (.client 0) (.submit .noop), .advance, .advance,
    .call (.client 0) (.submit .noop), .advance, .advance,
    .call (.client 0) (.submit .noop), .advance, .advance,
    .call (.client 0) (.submit .noop), .advance, .advance,
    .call (.client 1) (.submit .noop), .advance, .advance,
    .call (.unit ⟨0⟩) (.reconfigure (.both 1 1)), .advance, .advance, .advance, .advance, .advance,
    .advance,
    .call (.unit ⟨2⟩) .retire, .advance, .advance, .advance,
    .call (.unit ⟨1⟩) .turn, .advance, .advance,
    .call (.unit ⟨0⟩) .turn, .advance, .advance, .advance, .advance,
    .call (.unit ⟨1⟩) .turn, .advance, .advance, .advance, .advance, .advance, .advance, .advance,
    .advance, .enter (.client 1), .advance]

/-- A thread that was held back is listed although the list is longer than the bound. -/
theorem exists_listed_above_bound :
    ∃ sys sys', System.Reachable fullConfig sys ∧ System.Step sys sys' ∧
      sys'.state.threadList = sys.state.threadList ++ [⟨4⟩] ∧
      fullConfig.admissionBound sys.state.live.primaries < sys.state.threadList.length := by
  obtain ⟨sys, sys', hrun, hmove, hlist, hlive, hlength⟩ : ∃ sys sys',
      System.run? fullConfig (fun _ => true) shrinkMoves = some sys ∧
      sys.move? (fun _ => true) .advance = some sys' ∧
      sys'.state.threadList = sys.state.threadList ++ [⟨4⟩] ∧ sys.state.live.primaries = 1 ∧
      sys.state.threadList.length = 3 := ⟨_, _, rfl, rfl, rfl, rfl, rfl⟩
  refine ⟨sys, sys', System.reachable_of_run? hrun, ⟨_, _, hmove⟩, hlist, ?_⟩
  rw [hlive, hlength]
  decide

end RoundScheduler
