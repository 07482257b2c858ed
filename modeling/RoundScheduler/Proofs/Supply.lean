import RoundScheduler.Proofs.Backpressure
import RoundScheduler.Proofs.FillRound
import RoundScheduler.Proofs.Progress

/-!
# What filling a round supplies

A call that fills a round counts once by how many threads the list is too short. Then it adds as
many units without work, one at a time, while others submit threads, take turns, retire and fill the
round. None of this takes a thread from the list before the next round begins, so what the list has
and what the call still owes are enough together. They are enough listed threads, that is. The count
takes everybody on the list for somebody who may become a primary, and the fill asks the rule of
eligibility. In the end the round may lack as many primaries as the rule rejected of those who were
counted, and no more.
-/

namespace RoundScheduler

open State

/-! ### Before the first round -/

namespace State

variable {s s' : State} {t : ThreadId} {w : Option ThreadId}

/-- Nobody retired before the first round. -/
lemma Sound.not_terminated_of_unbegun (h : Sound s) (hround : s.round = 0) :
    s.hasTerminated t = false := by
  refine Bool.eq_false_iff.mpr fun hterminated => ?_
  obtain ⟨r, hr, hflag⟩ := (Option.any_eq_true _ _).mp hterminated
  have hprimary := (h.seating.truthful t r hr).primary (.inr (.inr (.inl hflag)))
  have hmem := (h.seating.primary_of_mem hr).mp hprimary
  rw [h.seating.unbegun hround] at hmem
  cases hmem

/-- A change before the first round stages nothing and puts nothing into force. -/
lemma Change.configurations_of_unbegun (hc : Change s w s') (hs : Sound s) (hround : s'.round = 0) :
    s'.staged = s.staged ∧ s'.live = s.live := by
  have hbefore : s.round = 0 := by rcases hc.round_eq with heq | ⟨heq, -⟩ <;> omega
  have hnobody := hs.seating.unbegun hbefore
  cases hc with
  | finish t slot hslot | awaitTurn t slot hslot | turn t slot hslot | grant t slot _ _ hslot
  | enqueue t slot _ _ hslot | stage t slot _ _ _ hslot | retire t slot hslot =>
    simp [hnobody] at hslot
  | bootstrap => simp at hround
  | next hbegun | choose _ hbegun | start _ hbegun => exact absurd hbefore hbegun
  | dropLock l hl =>
    rw [dropLock_eq hl]
    exact ⟨rfl, rfl⟩
  | _ => exact ⟨rfl, rfl⟩

end State

namespace System

variable {c : Config} {sys sys' : System} {t : ThreadId}

/-- The first round has as many primaries as are in force before it. -/
lemma Reachable.staged_of_unbegun (h : Reachable c sys) (hround : sys.state.round = 0) :
    sys.state.staged.primaries = sys.state.live.primaries := by
  induction h using Reachable.induction with
  | initial sys hstart =>
    obtain ⟨rounds, -, rfl⟩ := Invariant.exists_rounds_of_initial hstart
    rfl
  | step sys sys' hreach hs ih =>
    have hinv := Invariant.of_reachable hreach
    have hbefore : sys.state.round = 0 := Nat.le_zero.mp (hround ▸ hs.round_le hreach)
    rcases hinv.effect hs with ⟨w, hchange⟩ | harrival
    · obtain ⟨hstaged, hlive⟩ := hchange.configurations_of_unbegun hinv.sound hround
      rw [hstaged, hlive, ih hbefore]
    · rw [harrival.staged_eq, harrival.settled.live, ih hbefore]

/-- Until a round is over, the first one included before it begins, the list keeps its threads and
the number of primaries stays. -/
lemma Step.keeps_list (h : Reachable c sys) (hs : Step sys sys')
    (hround : max 1 sys'.state.round = max 1 sys.state.round) :
    sys'.state.live.primaries = sys.state.live.primaries ∧
      sys.state.threadList <+: sys'.state.threadList := by
  have hinv := Invariant.of_reachable h
  rcases round_of_step h hs with hsame | ⟨hnext, -, hlive, -⟩
  · exact ⟨hs.live_primaries_eq h hsame, Path.threadList_prefix h (.single hs) hsame⟩
  · have hunbegun : sys.state.round = 0 := by omega
    refine ⟨by rw [hlive, h.staged_of_unbegun hunbegun], ?_⟩
    rcases hinv.effect hs with ⟨w, hchange⟩ | harrival
    · rcases hchange.threadList_eq hinv.sound with ⟨hsame, -⟩ | ⟨-, hlist⟩
      · omega
      · have hnobody : ∀ t ∈ sys.state.threadList, (!sys.state.hasTerminated t) = true :=
          fun t _ => by simp [hinv.sound.not_terminated_of_unbegun hunbegun]
        have hkept : sys'.state.threadList = sys.state.threadList :=
          hlist.trans (List.filter_eq_self.mpr hnobody)
        exact hkept ▸ List.prefix_rfl
    · have hsame := harrival.settled.round
      omega

end System

/-! ### A call that adds threads -/

/-- The places of a call that adds threads to the thread `first`, with the number of those that are
not listed yet. -/
inductive Submission.Owes (first : ThreadId) : Submission → Nat → Prop
  /-- It is about to take a number for the next one. -/
  | enrol (n : Nat) : Owes first (.enrol .filler (.more n first)) (n + 1)
  /-- The next one waits for admission. -/
  | await (t : ThreadId) (n : Nat) : Owes first (.awaitAdmission t .filler (.more n first)) (n + 1)
  /-- The next one is about to be listed. -/
  | list (t : ThreadId) (n : Nat) : Owes first (.list t .filler (.more n first)) (n + 1)

namespace System

/-- An agent is about to list a thread that it adds to the thread `first`. -/
def Adds (sys : System) (a : Agent) (first t : ThreadId) : Prop :=
  ∃ n, sys.submission? a = some (.list t .filler (.more n first))

/-- The first system has an agent that is about to count how many threads the round lacks, for the
unit that became the thread `first`, and in the second one its call has returned. -/
structure FillReturned (eligible : ThreadId → Bool) (a : Agent) (w : Work) (first : ThreadId)
    (before sys : System) : Prop where
  inside : before.inside = some a
  counts : before.calls.get? a = some ⟨.fill w, .submission (.count first)⟩
  path : PathUnder eligible before sys
  returned : ∃ new, sys.returns = new ++ before.returns ∧ ⟨a, .fill w, .thread first⟩ ∈ new

/-- The rule accepts the threads that an agent adds to the thread `first` between two systems. -/
def AcceptsAdded (eligible : ThreadId → Bool) (a : Agent) (first : ThreadId)
    (before sys : System) : Prop :=
  ∀ mid t, PathUnder eligible before mid → PathUnder eligible mid sys → mid.Adds a first t →
    eligible t = true

/-- Nobody waits for new threads to fill a round, because it did not begin, it is over, or it is
filled. -/
def IsSupplied (sys : System) (round : Nat) : Prop :=
  sys.state.round < round ∨ round < sys.state.round ∨
    sys.state.primaries.length = sys.state.live.primaries ∧ ∀ b, sys.fill? b = none

/-- With what a call owes, the rule accepts enough listed threads for the round, but for `short` of
them. -/
inductive Supplies (eligible : ThreadId → Bool) (a : Agent) (first : ThreadId) (short : Nat)
    (returns : List Return) (sys : System) : Prop
  /-- The call is under way. -/
  | owing {p : Submission} {left : Nat} (hplace : sys.submission? a = some p)
    (howes : p.Owes first left)
    (hreturns : ∃ new, sys.returns = new ++ returns ∧ ∀ r ∈ new, r.agent ≠ a)
    (henough : sys.state.live.primaries ≤ sys.state.threadList.countP eligible + left + short)
  /-- The call has returned. -/
  | settled
    (henough : sys.state.live.primaries ≤ sys.state.threadList.countP eligible + short)

end System

namespace Invariant

variable {sys sys' : System} {a : Agent} {op : Operation} {p : Submission}

/-- Whoever is inside the critical section at the place of a submitter has the next move. -/
lemma intake_of_inside (h : Invariant sys) (hinside : sys.inside = some a)
    (hcall : sys.calls.get? a = some ⟨op, .submission p⟩) (hs : System.Step sys sys') :
    ∃ o, Intake sys.config sys.state p o ∧ sys' = sys.apply a op o := by
  obtain ⟨eligible, m, hm⟩ := hs
  cases h.transition hm with
  | intake b op' q o hinside' hcall' ho =>
    cases hinside.symm.trans hinside'
    cases hcall.symm.trans hcall'
    exact ⟨o, ho, rfl⟩
  | stretch t op' ph o hinside' hcall' =>
    cases hinside.symm.trans hinside'
    cases hcall.symm.trans hcall'
  | call _ _ _ hnone | enter _ _ hnone | newLock hnone | dropLock _ hnone =>
    cases hinside.symm.trans hnone

/-- A submitter goes one place further, or it stays where it is and others do something. -/
lemma intake_or_others (h : Invariant sys) (hplace : sys.submission? a = some p)
    (hs : System.Step sys sys') :
    (∃ op o, sys.calls.get? a = some ⟨op, .submission p⟩ ∧ Intake sys.config sys.state p o ∧
        sys' = sys.apply a op o) ∨
      (sys'.submission? a = sys.submission? a ∧
        ∃ new, sys'.returns = new ++ sys.returns ∧ ∀ r ∈ new, r.agent ≠ a) := by
  obtain ⟨eligible, m, hm⟩ := hs
  -- What somebody else does concerns neither the place nor the returns of the submitter.
  have hother : ∀ {b : Agent} {op : Operation} {o : Outcome} {call? : Option Call}, a ≠ b →
      sys.calls.get? b = call? → (sys.apply b op o).submission? a = sys.submission? a ∧
        ∃ new, (sys.apply b op o).returns = new ++ sys.returns ∧ ∀ r ∈ new, r.agent ≠ a := by
    intro b op o call? hne hcall
    refine ⟨by rw [System.submission?_apply hcall, if_neg hne], _, System.returns_apply .., ?_⟩
    intro r hr
    cases o with
    | reply =>
      cases List.mem_singleton.mp hr
      exact hne.symm
    | _ => cases hr
  cases h.transition hm with
  | call b op o hinside hidle =>
    have hne : a ≠ b := fun hab => by simp [System.submission?, hab, hidle] at hplace
    exact .inr (hother hne hidle)
  | stretch t op ph o hinside hcall =>
    have hne : a ≠ .unit t := fun hat => by
      simp [System.submission?, hat, hcall, Point.submission?] at hplace
    exact .inr (hother hne hcall)
  | intake b op q o hinside hcall ho =>
    by_cases hab : a = b
    · subst hab
      obtain rfl : q = p := by simpa [System.submission?, hcall, Point.submission?] using hplace
      exact .inl ⟨op, o, hcall, ho, rfl⟩
    · exact .inr (hother hab hcall)
  | enter | newLock | dropLock => exact .inr ⟨rfl, [], rfl, List.forall_mem_nil _⟩

end Invariant

namespace System.Supplies

variable {c : Config} {eligible : ThreadId → Bool} {a : Agent} {first : ThreadId} {short : Nat}
  {returns : List Return} {sys sys' : System}

/-- The agent goes on as a submitter and owes as many threads less as it lists. -/
lemma intake {op : Operation} {p : Submission} {o : Outcome} {left : Nat}
    (hnames : sys.config.namesWorkers = true)
    (hcall : sys.calls.get? a = some ⟨op, .submission p⟩) (howes : p.Owes first left)
    (haccepts : ∀ t, sys.Adds a first t → eligible t = true)
    (ho : Intake sys.config sys.state p o)
    (hreturns : ∃ new, sys.returns = new ++ returns ∧ ∀ r ∈ new, r.agent ≠ a)
    (henough : sys.state.live.primaries ≤ sys.state.threadList.countP eligible + left + short) :
    Supplies eligible a first short returns (sys.apply a op o) := by
  have hplace := Submitters.submission?_of_call hcall
  -- What is listed is owed no more.
  have hgoes : ∀ s' q left', o = .goto s' (.submission q) ∨ o = .pause s' (.submission q) →
      q.Owes first left' → s'.live = sys.state.live →
      sys.state.threadList.countP eligible + left ≤ s'.threadList.countP eligible + left' →
      Supplies eligible a first short returns (sys.apply a op o) := by
    intro s' q left' ho howes' hlive hcount
    refine .owing ?_ howes' ?_ ?_
    · rw [submission?_apply hcall, if_pos rfl]
      rcases ho with rfl | rfl <;> rfl
    · rcases ho with rfl | rfl <;> exact hreturns
    · have hstate : o.state sys.state = s' := by rcases ho with rfl | rfl <;> rfl
      rw [state_apply, hstate, hlive]
      omega
  cases howes with
  | enrol n =>
    cases ho with
    | blocked => exact hgoes _ _ _ (.inl rfl) (.await _ n) rfl (Nat.le_refl _)
    | passed => exact hgoes _ _ _ (.inl rfl) (.list _ n) rfl (Nat.le_refl _)
  | await t n =>
    cases ho with
    | sleepForAdmission =>
      have hsame : (sys.apply a op .sleep).submission? a = sys.submission? a := rfl
      exact .owing (hsame.trans hplace) (.await t n) hreturns henough
    | admitted => exact hgoes _ _ _ (.inl rfl) (.list t n) rfl (Nat.le_refl _)
  | list t n =>
    have hlist : (sys.state.list t .filler).threadList = sys.state.threadList ++ [t] := rfl
    have hone : (sys.state.list t .filler).threadList.countP eligible =
        sys.state.threadList.countP eligible + 1 := by
      rw [hlist, List.countP_append, List.countP_singleton, if_pos (haccepts t ⟨n, hplace⟩)]
    cases ho with
    | listedWithMore _ _ m => exact hgoes _ _ _ (.inr rfl) (.enrol m) rfl (by omega)
    | listedLast =>
      have hlive : (sys.state.list t .filler).live = sys.state.live := rfl
      refine .settled ?_
      rw [state_apply, Outcome.state, hlive, hone]
      omega
    | unnamed _ _ _ hunnamed => simp [hunnamed] at hnames

/-- Until the round is over, every move leaves enough threads for it. -/
theorem step (h : Supplies eligible a first short returns sys) (hreach : Reachable c sys)
    (hnames : c.namesWorkers = true) (haccepts : ∀ t, sys.Adds a first t → eligible t = true)
    (hs : Step sys sys') (hround : max 1 sys'.state.round = max 1 sys.state.round) :
    Supplies eligible a first short returns sys' := by
  obtain ⟨hlive, hlist⟩ := hs.keeps_list hreach hround
  have hcount : sys.state.threadList.countP eligible ≤ sys'.state.threadList.countP eligible :=
    hlist.sublist.countP_le
  cases h with
  | settled henough => exact .settled (by omega)
  | owing hplace howes hreturns henough =>
    rcases (Invariant.of_reachable hreach).intake_or_others hplace hs with
      ⟨op, o, hcall, ho, rfl⟩ | ⟨hsame, new, hnew, hothers⟩
    · exact intake (hreach.config_eq.symm ▸ hnames) hcall howes haccepts ho hreturns henough
    · obtain ⟨past, hpast, hpast'⟩ := hreturns
      refine .owing (hsame.trans hplace) howes ⟨new ++ past, ?_, fun r hr => ?_⟩ (by omega)
      · rw [hnew, hpast, List.append_assoc]
      · exact (List.mem_append.mp hr).elim (hothers r) (hpast' r)

/-- Whoever counts owes as many threads as the list is too short. -/
lemma of_count (hinv : Invariant sys) (hinside : sys.inside = some a) {w : Work}
    (hcounts : sys.calls.get? a = some ⟨.fill w, .submission (.count first)⟩)
    (hs : Step sys sys') : sys'.state = sys.state ∧
      Supplies eligible a first (sys.state.threadList.countP fun t => !eligible t) sys.returns
        sys' := by
  have hlength : sys.state.threadList.length = sys.state.threadList.countP eligible +
      sys.state.threadList.countP fun t => !eligible t := by
    simpa only [Bool.not_eq_true, Bool.decide_eq_false] using
      List.length_eq_countP_add_countP eligible (l := sys.state.threadList)
  have hmissing := hinv.sound.missingPrimaries_eq
  obtain ⟨o, ho, rfl⟩ := hinv.intake_of_inside hinside hcounts hs
  have hplace := @System.submission?_apply sys a (.fill w) o _ hcounts a
  rw [if_pos rfl] at hplace
  cases ho with
  | lacking _ n hn =>
    refine ⟨state_apply .., .owing hplace (.enrol n) ⟨[], rfl, List.forall_mem_nil _⟩ ?_⟩
    simp only [state_apply, Outcome.state]
    omega
  | sufficient _ hn =>
    refine ⟨state_apply .., .settled ?_⟩
    simp only [state_apply, Outcome.state]
    omega

/-- Every path leaves enough threads for the round, as long as it is not over. -/
lemma path (h : Supplies eligible a first short returns sys) (hreach : Reachable c sys)
    (hnames : c.namesWorkers = true) (hpath : PathUnder eligible sys sys')
    (haccepts : AcceptsAdded eligible a first sys sys')
    (hround : max 1 sys'.state.round = max 1 sys.state.round) :
    Supplies eligible a first short returns sys' := by
  induction hpath with
  | refl => exact h
  | @tail mid sys' hpath hs ih =>
    have hmid := hreach.path (PathUnder.path hpath)
    have hbefore := (Path.exists_events hreach (PathUnder.path hpath)).1
    have hafter := hs.step.round_le hmid
    have hsupplies := ih (fun last t hlast hlast' => haccepts last t hlast (hlast'.tail hs))
      (by omega)
    exact hsupplies.step hmid hnames (fun t => haccepts mid t hpath (.single hs)) hs.step (by omega)

/-- So when the call has returned and the round is not over, there are enough threads for it. -/
theorem of_returned {before : System} {w : Work} (h : Reachable c before)
    (hnames : c.namesWorkers = true) (hfill : FillReturned eligible a w first before sys)
    (haccepts : AcceptsAdded eligible a first before sys)
    (hround : max 1 sys.state.round = max 1 before.state.round) :
    sys.state.live.primaries ≤ sys.state.threadList.countP eligible +
      before.state.threadList.countP fun t => !eligible t := by
  obtain ⟨new, hnew, hreturn⟩ := hfill.returned
  rcases hfill.path.cases_head with rfl | ⟨counted, hcounted, hpath⟩
  · obtain rfl : new = [] := by simpa using hnew
    cases hreturn
  · obtain ⟨hstate, hsupplies⟩ := of_count (Invariant.of_reachable h)
      hfill.inside hfill.counts hcounted.step
    cases hsupplies.path (h.step hcounted.step) hnames hpath
      (fun mid t hmid => haccepts mid t (.head hcounted hmid)) (hstate ▸ hround) with
    | owing _ _ hreturns =>
      obtain ⟨new', hnew', hother⟩ := hreturns
      obtain rfl : new = new' := List.append_cancel_right (hnew.symm.trans hnew')
      exact absurd rfl (hother _ hreturn)
    | settled henough => exact henough

end System.Supplies

/-! ### At rest -/

namespace Invariant

variable {sys : System} {eligible : ThreadId → Bool}

/-- When nobody can go on, whoever fills a round has chosen everybody whom the rule accepts. -/
lemma primaries_of_stuck (h : Invariant sys) (hformed : Formed eligible sys)
    (hstuck : sys.IsStuck eligible) {a : Agent} (ha : (sys.fill? a).isSome) :
    sys.state.primaries = sys.state.threadList.filter eligible ∧
      sys.state.primaries.length < sys.state.live.primaries := by
  obtain ⟨⟨index, plan⟩, ha⟩ := Option.isSome_iff_exists.mp ha
  obtain ⟨t, rfl, rfl, hlacks⟩ := h.fill_index_of_stuck hstuck ha
  have hchosen := hformed.filling _ _ plan ha
  rw [List.take_length] at hchosen
  exact ⟨hchosen, hlacks⟩

end Invariant

/-- When a call that fills a round has returned and nobody can go on, the round in which it counted,
or the first one, is over, did not begin, or lacks at most as many primaries as the rule of
eligibility rejected of the threads that were listed when it counted, provided that the rule accepts
the threads that the call added. So the round is filled if the rule rejected none of them. -/
theorem fill_round_supplies {c : Config} {eligible : ThreadId → Bool} {before sys : System}
    {a : Agent} {w : Work} {first : ThreadId} (h : System.ReachableUnder c eligible before)
    (hfill : System.FillReturned eligible a w first before sys)
    (haccepts : System.AcceptsAdded eligible a first before sys)
    (hstuck : sys.IsStuck eligible) :
    (sys.state.round = max 1 before.state.round → sys.state.live.primaries ≤
      sys.state.primaries.length + before.state.threadList.countP fun t => !eligible t) ∧
    ((∀ t ∈ before.state.threadList, eligible t = true) →
      sys.IsSupplied (max 1 before.state.round)) := by
  have hreach := h.reachable.path hfill.path.path
  have hinv := Invariant.of_reachable hreach
  have hnames : c.namesWorkers = true := by
    by_contra hunnamed
    have hunstaffed := Unstaffed.of_reachable (Bool.eq_false_iff.mpr hunnamed) h.reachable
    exact hunstaffed.submissions a first (Submitters.submission?_of_call hfill.counts)
  have hformed : Formed eligible sys := by
    obtain ⟨start, hstart, hpath⟩ := h
    exact (Selective.of_reachable ⟨start, hstart, hpath.trans hfill.path⟩).formed
  have henough : sys.state.round = max 1 before.state.round → sys.state.live.primaries ≤
      sys.state.primaries.length + before.state.threadList.countP fun t => !eligible t := by
    intro hround
    rcases Nat.lt_or_ge sys.state.primaries.length sys.state.live.primaries with hlacks | hfull
    · obtain ⟨b, hb⟩ := hinv.fillers.exists_filler (by omega) hlacks
      have hchosen := (hinv.primaries_of_stuck hformed hstuck hb).1
      rw [hchosen, ← List.countP_eq_length_filter]
      exact System.Supplies.of_returned h.reachable hnames hfill haccepts (by omega)
    · omega
  refine ⟨henough, fun hall => ?_⟩
  rcases Nat.lt_trichotomy sys.state.round (max 1 before.state.round) with hlt | heq | hgt
  · exact .inl hlt
  · have hnobody : before.state.threadList.countP (fun t => !eligible t) = 0 :=
      List.countP_eq_zero.mpr fun t ht => by simp [hall t ht]
    have hfull := henough heq
    have hlength := hinv.sound.seating.length_le
    refine .inr (.inr ⟨by omega, fun b => Option.not_isSome_iff_eq_none.mp fun hb => ?_⟩)
    have hlacks := (hinv.primaries_of_stuck hformed hstuck hb).2
    omega
  · exact .inr (.inl hgt)

/-! ### Threads that are rejected -/

/-- A number was handed out, and its thread is not on its way to the list. -/
def State.IsPast (s : State) (t : ThreadId) : Prop :=
  t.raw < s.nextThread.raw ∧ s.started? t ≠ some false

namespace State

variable {s s' : State} {t : ThreadId} {w : Option ThreadId}

lemma Change.isPast (hc : Change s w s') (hs : Sound s) (h : s.IsPast t) : s'.IsPast t :=
  ⟨hc.nextThread_eq ▸ h.1, fun ht => h.2 (hc.started?_of_some hs ht)⟩

lemma Arrival.isPast (ha : Arrival s s') (h : s.IsPast t) : s'.IsPast t := by
  have henrol : s.enrol.IsPast t := by
    have hne : t ≠ s.nextThread := fun heq => absurd h.1 (by simp [heq])
    refine ⟨Nat.lt_succ_of_lt h.1, ?_⟩
    rw [Roster.started?_enrol, if_neg hne]
    exact h.2
  cases ha with
  | enrol => exact henrol
  | block => exact henrol
  | list u work =>
    refine ⟨h.1, fun ht => ?_⟩
    rw [Roster.started?_list] at ht
    split at ht
    · obtain ⟨-, -, hfalse⟩ := Option.map_eq_some_iff.mp ht
      cases hfalse
    · exact h.2 ht

end State

namespace System

variable {c : Config} {eligible : ThreadId → Bool} {sys mid : System}

lemma Path.isPast {t : ThreadId} (h : Reachable c sys) (hpath : Path sys mid)
    (ht : sys.state.IsPast t) : mid.state.IsPast t := by
  induction hpath with
  | refl => exact ht
  | tail hpath hs ih =>
    have hinv := Invariant.of_reachable (h.path hpath)
    rcases hinv.effect hs with ⟨w, hchange⟩ | harrival
    · exact hchange.isPast hinv.sound ih
    · exact harrival.isPast ih

/-- A call adds nobody who was listed before. -/
lemma Path.ne_of_adds {a : Agent} {first t u : ThreadId} (h : Reachable c sys)
    (hpath : Path sys mid) (ht : t ∈ sys.state.threadList) (hadds : mid.Adds a first u) :
    u ≠ t := by
  rintro rfl
  have hroster := (Invariant.of_reachable h).sound.roster
  obtain ⟨r, hr, hstarted⟩ := hroster.exists_record ht
  have hpast : sys.state.IsPast u :=
    ⟨hroster.fresh u (by simp [started?, hr]), by simp [started?, hr, hstarted]⟩
  obtain ⟨n, hplace⟩ := hadds
  exact (Path.isPast h hpath hpast).2
    ((Invariant.of_reachable (h.path hpath)).submitters.unstarted a _ u hplace rfl)

/-- Some moves in which a call counts and which end when it has returned. -/
lemma fillReturned_of_follow? {a : Agent} {w : Work} {first : ThreadId} {ms : List Move}
    (h : sys.follow? eligible ms = some mid) (hinside : sys.inside = some a)
    (hcounts : sys.calls.get? a = some ⟨.fill w, .submission (.count first)⟩)
    (hreturns : mid.returns = ⟨a, .fill w, .thread first⟩ :: sys.returns) :
    FillReturned eligible a w first sys mid :=
  ⟨hinside, hcounts, pathUnder_of_follow? h, [_], hreturns, List.mem_singleton.mpr rfl⟩

/-- Nobody can go on if none of those who are in an operation can. -/
lemma isStuck_of_all (h : sys.calls.entries.all (fun e => !sys.canProceed eligible e.1) = true) :
    sys.IsStuck eligible := by
  intro a
  cases hcall : sys.calls.get? a with
  | none => rw [canProceed, hcall]
  | some call =>
    simpa using List.all_eq_true.mp h _ (Table.mem_entries_of_get?_eq_some hcall)

end System

/-- The moves of a client that submits a unit and then fills the round with another one, up to the
point where it counts. -/
def submitAndFill : List Move :=
  [.call (.client 0) (.submit .interactive), .advance, .advance,
    .call (.client 0) (.fill .interactive), .advance, .advance, .enter (.client 0)]

/-- The moves by which the client finds that one thread is missing and adds it; then the thread of
the second unit begins the first round and looks at all three. -/
def addOneAndStart : List Move :=
  [.advance, .enter (.client 0), .advance, .advance,
    .call (.unit ⟨1⟩) .turn, .advance, .advance, .advance, .advance, .advance]

/-- The moves by which a thread that filled the round waits for its turn. -/
def awaitTurnAfterFill : List Move := [.advance, .advance, .advance]

/-- If the first thread is rejected, the round lacks one of three primaries. Otherwise it is
filled. -/
theorem fill_round_supplies_addOneAndStart :
    (∃ before sys, System.run? { primaries := 3 } (· ≠ ⟨0⟩) submitAndFill = some before ∧
      before.follow? (· ≠ ⟨0⟩) addOneAndStart = some sys ∧ sys.state.primaries = [⟨1⟩, ⟨2⟩] ∧
      sys.state.live.primaries ≤ sys.state.primaries.length + 1) ∧
    ∃ before sys, System.run? { primaries := 3 } (fun _ => true) submitAndFill = some before ∧
      before.follow? (fun _ => true) (addOneAndStart ++ awaitTurnAfterFill) = some sys ∧
      sys.state.primaries = [⟨0⟩, ⟨1⟩, ⟨2⟩] ∧ sys.IsSupplied 1 := by
  constructor
  · obtain ⟨before, sys, hbefore, hsys, hround, hlist, hinside, hcounts, hreturns,
        hrest, hround', hprimaries⟩ : ∃ before sys,
        System.run? { primaries := 3 } (· ≠ ⟨0⟩) submitAndFill = some before ∧
        before.follow? (· ≠ ⟨0⟩) addOneAndStart = some sys ∧ before.state.round = 0 ∧
        before.state.threadList = [⟨0⟩, ⟨1⟩] ∧ before.inside = some (.client 0) ∧
        before.calls.get? (.client 0) = some ⟨.fill .interactive, .submission (.count ⟨1⟩)⟩ ∧
        sys.returns = ⟨.client 0, .fill .interactive, .thread ⟨1⟩⟩ :: before.returns ∧
        sys.calls.entries.all (fun e => !sys.canProceed (· ≠ ⟨0⟩) e.1) = true ∧
        sys.state.round = 1 ∧ sys.state.primaries = [⟨1⟩, ⟨2⟩] :=
      ⟨_, _, rfl, rfl, rfl, rfl, rfl, rfl, rfl, rfl, rfl, rfl⟩
    have hreach := System.reachableUnder_of_run? hbefore
    have hfill := System.fillReturned_of_follow? hsys hinside hcounts hreturns
    have haccepts : System.AcceptsAdded (· ≠ ⟨0⟩) (.client 0) ⟨1⟩ before sys :=
      fun mid t hmid _ hadds => decide_eq_true
        (System.Path.ne_of_adds hreach.reachable hmid.path (by simp [hlist]) hadds)
    have hlacks := (fill_round_supplies hreach hfill haccepts (System.isStuck_of_all hrest)).1
      (by rw [hround, hround']; rfl)
    rw [hlist] at hlacks
    exact ⟨before, sys, hbefore, hsys, hprimaries, hlacks⟩
  · obtain ⟨before, sys, hbefore, hsys, hround, hinside, hcounts, hreturns,
        hrest, hprimaries⟩ : ∃ before sys,
        System.run? { primaries := 3 } (fun _ => true) submitAndFill = some before ∧
        before.follow? (fun _ => true) (addOneAndStart ++ awaitTurnAfterFill) = some sys ∧
        before.state.round = 0 ∧ before.inside = some (.client 0) ∧
        before.calls.get? (.client 0) = some ⟨.fill .interactive, .submission (.count ⟨1⟩)⟩ ∧
        sys.returns = ⟨.client 0, .fill .interactive, .thread ⟨1⟩⟩ :: before.returns ∧
        sys.calls.entries.all (fun e => !sys.canProceed (fun _ => true) e.1) = true ∧
        sys.state.primaries = [⟨0⟩, ⟨1⟩, ⟨2⟩] :=
      ⟨_, _, rfl, rfl, rfl, rfl, rfl, rfl, rfl, rfl⟩
    have hfill := System.fillReturned_of_follow? hsys hinside hcounts hreturns
    have hsupplied := (fill_round_supplies (System.reachableUnder_of_run? hbefore) hfill
      (fun _ _ _ _ _ => rfl) (System.isStuck_of_all hrest)).2 fun _ _ => rfl
    rw [hround] at hsupplied
    exact ⟨before, sys, hbefore, hsys, hprimaries, hsupplied⟩

/-- The moves by which the client finds that no thread is missing; then the thread of the second
unit begins the first round and looks at both. -/
def addNobodyAndStart : List Move :=
  [.advance, .call (.unit ⟨1⟩) .turn, .advance, .advance, .advance, .advance]

/-- It is not so for every rule that accepts the threads that the call adds. If the first thread is
rejected, a round of two primaries waits for a thread that the call did not add. -/
theorem fill_round_not_supplies :
    ¬ ∀ (c : Config) (eligible : ThreadId → Bool) (before sys : System) (a : Agent) (w : Work)
      (first : ThreadId), 1 ≤ c.admissionFactor → System.ReachableUnder c eligible before →
      System.FillReturned eligible a w first before sys →
      System.AcceptsAdded eligible a first before sys →
      sys.IsStuck eligible → sys.IsSupplied (max 1 before.state.round) := by
  intro hall
  obtain ⟨before, sys, hbefore, hsys, hround, hlist, hinside, hcounts, hreturns, hrest,
      hround', hprimaries, hlive⟩ : ∃ before sys,
      System.run? { primaries := 2 } (· ≠ ⟨0⟩) submitAndFill = some before ∧
      before.follow? (· ≠ ⟨0⟩) addNobodyAndStart = some sys ∧ before.state.round = 0 ∧
      before.state.threadList = [⟨0⟩, ⟨1⟩] ∧ before.inside = some (.client 0) ∧
      before.calls.get? (.client 0) = some ⟨.fill .interactive, .submission (.count ⟨1⟩)⟩ ∧
      sys.returns = ⟨.client 0, .fill .interactive, .thread ⟨1⟩⟩ :: before.returns ∧
      sys.calls.entries.all (fun e => !sys.canProceed (· ≠ ⟨0⟩) e.1) = true ∧
      sys.state.round = 1 ∧ sys.state.primaries = [⟨1⟩] ∧ sys.state.live.primaries = 2 :=
    ⟨_, _, rfl, rfl, rfl, rfl, rfl, rfl, rfl, rfl, rfl, rfl, rfl⟩
  have hreach := System.reachableUnder_of_run? hbefore
  have hfill := System.fillReturned_of_follow? hsys hinside hcounts hreturns
  have hsupplied := hall _ _ before sys _ _ _ (by decide) hreach hfill
    (fun mid t hmid _ hadds => decide_eq_true
      (System.Path.ne_of_adds hreach.reachable hmid.path (by simp [hlist]) hadds))
    (System.isStuck_of_all hrest)
  rw [hround] at hsupplied
  rcases hsupplied with hlt | hgt | ⟨hfilled, -⟩
  · simp [hround'] at hlt
  · simp [hround'] at hgt
  · simp [hprimaries, hlive] at hfilled

end RoundScheduler
