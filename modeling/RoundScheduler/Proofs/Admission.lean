import RoundScheduler.Proofs.Invariant
import RoundScheduler.Proofs.State.Turnover

/-!
# Who is listed, and where

A submitter takes a number, and if the list is not too long it lists its thread in the same critical
section. Otherwise its thread is held back until the start of a round that removes somebody lets it
through, and it is listed at some time after that. `Gate` says what changes do to those who are held
back. From it follows what a thread that was not held back finds when it is listed: the bound that
was tested still holds, and nobody with a later number is there. So the list is in the order of the
numbers, except for threads that were held back.
-/

namespace RoundScheduler

open State

namespace State

variable {s s' : State} {t u : ThreadId}

/-! ### What changes do to those who are held back -/

lemma isAdmitted_of_map {g : ThreadRecord → ThreadRecord}
    (hrecord : s'.record? t = (s.record? t).map g) (hg : ∀ r, (g r).admitted = r.admitted) :
    s'.isAdmitted t = s.isAdmitted t := by
  rw [isAdmitted, hrecord, isAdmitted]
  cases s.record? t with
  | none => rfl
  | some r => exact hg r

/-- What a change that is no arrival does to the list, to those who are held back, and to the number
of primaries. -/
inductive Gate (s : State) : State → Prop
  /-- Nothing. -/
  | keep {s' : State} (hround : s'.round = s.round) (hlist : s'.threadList = s.threadList)
    (hqueue : s'.admissionQueue = s.admissionQueue)
    (hlive : s'.live.primaries = s.live.primaries)
    (hadmitted : ∀ t, s'.isAdmitted t = s.isAdmitted t) : Gate s s'
  /-- A round begins, and nobody is removed or let through. -/
  | begin {s' : State} (hround : s'.round = s.round + 1) (hlist : s'.threadList = s.threadList)
    (hqueue : s'.admissionQueue = s.admissionQueue) (hlive : s'.live = s.staged)
    (hadmitted : ∀ t, s'.isAdmitted t = s.isAdmitted t) : Gate s s'
  /-- A round begins without those who retired, and everybody who was held back is let through. -/
  | letThrough {s' : State} (hround : s'.round = s.round + 1)
    (hlist : s'.threadList.Sublist s.threadList) (hqueue : s'.admissionQueue = [])
    (hlive : s'.live = s.staged) (hadmitted : ∀ t, (s'.record? t).isSome →
      s'.isAdmitted t = (s.isAdmitted t || decide (t ∈ s.admissionQueue))) : Gate s s'

/-- The start of a round. -/
lemma Roster.gate_beginRound (h : Roster s) : Gate s s.beginRound := by
  have hrecord := fun t => record?_beginRound (u := t) h.keys_nodup
  by_cases hadmits : s.admits = true
  · refine .letThrough round_beginRound ?_ ?_ live_beginRound fun t ht => ?_
    · exact threadList_beginRound ▸ List.filter_sublist
    · rw [admissionQueue_beginRound, if_pos hadmits]
    · rw [hrecord, Option.isSome_map] at ht
      obtain ⟨r, hr⟩ := Option.isSome_iff_exists.mp ht
      rw [isAdmitted, hrecord, hr, isAdmitted, (Option.filter_eq_some_iff.mp hr).1]
      by_cases hq : t ∈ s.admissionQueue <;> simp [hadmits, hq]
  · -- Nobody on the list retired, so all records stay.
    have hnobody : ∀ t ∈ s.threadList, s.hasTerminated t = false := by
      simpa [admits] using hadmits
    have hstay : ∀ t, s.beginRound.record? t = s.record? t := by
      intro t
      rw [hrecord]
      cases hr : s.record? t with
      | none => rfl
      | some r =>
        have hkept : (r.terminated && decide (t ∈ s.threadList)) = false := by
          by_cases ht : t ∈ s.threadList
          · have hterminated : r.terminated = false := by
              simpa [hasTerminated, hr] using hnobody t ht
            simp [hterminated]
          · simp [ht]
        simp [Option.filter, hkept, hadmits]
    refine .begin round_beginRound ?_ ?_ live_beginRound fun t => ?_
    · rw [threadList_beginRound, List.filter_eq_self]
      exact fun t ht => by simp [hnobody t ht]
    · rw [admissionQueue_beginRound, if_neg hadmits]
    · rw [isAdmitted, hstay, isAdmitted]

/-- Every change does one of these things. -/
theorem Change.gate {w : Option ThreadId} (hc : Change s w s') (hs : Sound s) : Gate s s' := by
  have hturn : ∀ {t slot s'}, s'.round = (s.afterTurn t slot).round →
      s'.threadList = (s.afterTurn t slot).threadList →
      s'.admissionQueue = (s.afterTurn t slot).admissionQueue →
      s'.live = (s.afterTurn t slot).live →
      (∀ u, s'.isAdmitted u = (s.afterTurn t slot).isAdmitted u) → Gate s s' := by
    intro t slot s' hround hlist hqueue hlive hadmitted
    refine .keep (hround.trans (round_afterTurn slot)) (hlist.trans (threadList_afterTurn slot))
      (hqueue.trans (by rw [afterTurn_eq])) ?_ fun u => ?_
    · rw [hlive]
      exact (settled_afterTurn slot).live
    · rw [hadmitted]
      exact isAdmitted_of_map (record?_afterTurn slot) fun _ => rfl
  cases hc with
  | finish => exact .keep rfl rfl rfl rfl fun _ => isAdmitted_of_map record?_finish fun _ => rfl
  | awaitTurn =>
    exact .keep rfl rfl rfl rfl fun _ => isAdmitted_of_map record?_awaitTurn fun _ => rfl
  | turn t slot | grant t slot | stage t slot => exact hturn rfl rfl rfl rfl fun _ => rfl
  | enqueue t slot =>
    exact hturn rfl rfl rfl rfl fun _ => isAdmitted_of_map record?_enqueue fun _ => rfl
  | retire t slot =>
    refine .keep (round_afterRetirement slot) (threadList_afterRetirement slot)
      (by rw [afterRetirement_eq]) (settled_afterRetirement slot).live fun _ => ?_
    exact isAdmitted_of_map (record?_afterRetirement slot) fun _ => rfl
  | bootstrap hround => exact hs.roster.gate_beginRound
  | next =>
    have hclose : ∀ t, s.closeRound.isAdmitted t = s.isAdmitted t := fun _ =>
      isAdmitted_of_map record?_closeRound fun _ => rfl
    cases hs.roster.closeRound.gate_beginRound with
    | keep hround => exact absurd (hround.symm.trans round_beginRound) (Nat.succ_ne_self _).symm
    | begin hround hlist hqueue hlive hadmitted =>
      exact .begin hround hlist hqueue hlive fun t => (hadmitted t).trans (hclose t)
    | letThrough hround hlist hqueue hlive hadmitted =>
      exact .letThrough hround hlist hqueue hlive fun t ht => hclose t ▸ hadmitted t ht
  | choose => exact .keep rfl rfl rfl rfl fun _ => isAdmitted_of_map record?_choose fun _ => rfl
  | unlink t =>
    exact .keep rfl rfl rfl rfl fun _ => isAdmitted_of_map (record?_detach [t]) fun _ => rfl
  | handOver => exact .keep rfl rfl rfl rfl fun _ => isAdmitted_of_map record?_handOver fun _ => rfl
  | dropLock l hl =>
    rw [dropLock_eq hl]
    exact .keep rfl rfl rfl rfl fun _ => rfl
  | _ => exact .keep rfl rfl rfl rfl fun _ => rfl

lemma isAdmitted_enrol (ht : t ≠ s.nextThread) : s.enrol.isAdmitted t = s.isAdmitted t := by
  rw [isAdmitted, record?_enrol, if_neg ht, isAdmitted]

/-- Arrivals let nobody through. -/
lemma Arrival.isAdmitted_eq (ha : Arrival s s') (hs : Sound s) (ht : (s.record? t).isSome) :
    s'.isAdmitted t = s.isAdmitted t := by
  have hknown : t ≠ s.nextThread := by
    rintro rfl
    have hnone := hs.roster.nextThread_unknown
    rw [isSome_record?_iff, hnone] at ht
    cases ht
  cases ha with
  | enrol => exact isAdmitted_enrol hknown
  | block => exact isAdmitted_enrol hknown
  | list u w => exact Submitters.isAdmitted_list w

/-- Whoever was let through stays so by a change, as long as it has a record. -/
lemma Change.isAdmitted_mono {w : Option ThreadId} (hc : Change s w s') (hs : Sound s)
    (ht : (s'.record? t).isSome) (hadmitted : s.isAdmitted t = true) : s'.isAdmitted t = true := by
  cases hc.gate hs with
  | keep _ _ _ _ hsame => exact (hsame t).trans hadmitted
  | begin _ _ _ _ hsame => exact (hsame t).trans hadmitted
  | letThrough _ _ _ _ hthrough => rw [hthrough t ht, hadmitted, Bool.true_or]

/-- Nobody joins the list, and whoever is listed and was let through stays so. -/
structure Remains (s s' : State) : Prop where
  list : s'.threadList.Sublist s.threadList
  admitted : ∀ u ∈ s'.threadList, s.isAdmitted u = true → s'.isAdmitted u = true

lemma Change.remains {w : Option ThreadId} (hc : Change s w s') (hs : Sound s) : Remains s s' where
  list := hc.threadList_sublist hs
  admitted u hu := by
    obtain ⟨r, hr, -⟩ := (hc.sound hs).roster.exists_record hu
    exact hc.isAdmitted_mono hs (by simp [hr])

lemma Arrival.remains (ha : Arrival s s') (hs : Sound s) (hlist : s'.threadList = s.threadList) :
    Remains s s' where
  list := hlist ▸ List.Sublist.refl _
  admitted u hu := by
    obtain ⟨r, hr, -⟩ := hs.roster.exists_record (hlist ▸ hu)
    exact (ha.isAdmitted_eq hs (by simp [hr])).trans

end State

/-! ### The moves that list a thread -/

namespace Invariant

variable {sys sys' : System} {t : ThreadId}

/-- An arrival holds back a thread because the list is too long, or lists the thread of a submitter,
or does neither. -/
lemma listing (h : Invariant sys) (hs : System.Step sys sys') :
    (∃ w, Change sys.state w sys'.state) ∨ Arrival sys.state sys'.state ∧
      ((sys'.state.threadList = sys.state.threadList ∧
          (sys'.state.admissionQueue = sys.state.admissionQueue ∨
            sys.state.isFull sys.config = true)) ∨
        ∃ a u w k, sys.submission? a = some (.list u w k) ∧ sys'.state = sys.state.list u w) := by
  obtain ⟨eligible, m, hm⟩ := hs
  cases h.transition hm with
  | intake a op p o hinside hcall ho =>
    rw [System.state_apply]
    rcases h.intake_arrival hcall ho with heq | harrival
    · exact .inl ⟨none, heq.symm ▸ .stay⟩
    · refine .inr ⟨harrival, ?_⟩
      have hplace := Submitters.submission?_of_call hcall
      cases ho with
      | listed u w | listedToCount u w | listedWithMore u w | listedLast u w =>
        exact .inr ⟨a, u, w, _, hplace, rfl⟩
      | blocked w k hfull => exact .inl ⟨rfl, .inr hfull⟩
      | _ => exact .inl ⟨rfl, .inl rfl⟩
  | call a op o hinside hidle halive hlocks ho =>
    rw [System.state_apply]
    exact .inl ⟨none, ho.change⟩
  | stretch u op ph o hinside hcall hop ho =>
    rw [System.state_apply]
    exact .inl ⟨some u, h.stretch_change hcall hop ho⟩
  | enter a call hinside hcall => exact .inl ⟨none, .stay⟩
  | newLock hinside => exact .inl ⟨none, .newLock⟩
  | dropLock l hinside hl hunused => exact .inl ⟨none, .dropLock l hl (h.unlinked hunused)⟩

/-- A move lists the thread of a submitter, or nobody. -/
lemma remains_or_lists (h : Invariant sys) (hs : System.Step sys sys') :
    Remains sys.state sys'.state ∨
      ∃ a u w k, sys.submission? a = some (.list u w k) ∧ sys'.state = sys.state.list u w := by
  rcases h.listing hs with ⟨w, hchange⟩ | ⟨harrival, ⟨hlist, -⟩ | hlists⟩
  · exact .inl (hchange.remains h.sound)
  · exact .inl (harrival.remains h.sound hlist)
  · exact .inr hlists

/-- Whoever was let through before its thread is listed stays so. -/
lemma isAdmitted_of_submission (h : Invariant sys) (hs : System.Step sys sys') {a : Agent}
    {p : Submission} (hp : sys.submission? a = some p) (ht : p.thread? = some t)
    (hadmitted : sys.state.isAdmitted t = true) : sys'.state.isAdmitted t = true := by
  have hunstarted := h.submitters.unstarted a p t hp ht
  rcases h.effect hs with ⟨w, hchange⟩ | harrival
  · refine hchange.isAdmitted_mono h.sound ?_ hadmitted
    rw [isSome_record?_iff, (hchange.patient h.sound).unstarted t hunstarted]
    rfl
  · have hrecord : (sys.state.record? t).isSome := h.isSome_of_submission hp ht
    exact (harrival.isAdmitted_eq h.sound hrecord).trans hadmitted

end Invariant

/-! ### Threads that are not held back -/

/-- Whoever is about to list a thread that was not held back is still inside the critical section,
the list is not too long, and everybody on it has an earlier number. -/
def Prompt (sys : System) : Prop :=
  ∀ a t w k, sys.submission? a = some (.list t w k) → sys.state.isAdmitted t = false →
    sys.inside = some a ∧ sys.state.isFull sys.config = false ∧
      ∀ u ∈ sys.state.threadList, u.raw < t.raw

namespace Prompt

variable {sys sys' : System}

/-- It is kept by a move that takes nobody to this place who is neither inside the critical section
nor was let through. -/
lemma keep (h : Prompt sys) (hinv : Invariant sys) (hs : System.Step sys sys')
    (hplaces : ∀ a t w k, sys'.submission? a = some (.list t w k) →
      (sys.submission? a = some (.list t w k) ∧ sys.inside ≠ some a) ∨
        sys'.state.isAdmitted t = true ∨ sys'.inside = some a ∧
          sys'.state.isFull sys'.config = false ∧ ∀ u ∈ sys'.state.threadList, u.raw < t.raw) :
    Prompt sys' := by
  intro a t w k ha hheld
  rcases hplaces a t w k ha with ⟨hbefore, houtside⟩ | hadmitted | hprompt
  · cases hadmitted : sys.state.isAdmitted t with
    | true =>
      have hafter := hinv.isAdmitted_of_submission hs hbefore rfl hadmitted
      exact absurd (hheld.symm.trans hafter) Bool.false_ne_true
    | false => exact absurd (h a t w k hbefore hadmitted).1 houtside
  · exact absurd (hheld.symm.trans hadmitted) Bool.false_ne_true
  · exact hprompt

/-- Every move keeps it. -/
theorem step (h : Prompt sys) (hinv : Invariant sys) (hs : System.Step sys sys') :
    Prompt sys' := by
  obtain ⟨eligible, m, hm⟩ := id hs
  cases hinv.transition hm with
  | call a op o hinside hidle halive hlocks ho =>
    refine h.keep hinv hs fun b t w k hb => .inl ⟨?_, by simp [hinside]⟩
    rw [System.submission?_apply hidle] at hb
    split at hb
    · cases ho <;> cases hb
    · exact hb
  | stretch u op ph o hinside hcall hop ho =>
    refine h.keep hinv hs fun b t w k hb => .inl ?_
    rw [System.submission?_apply hcall] at hb
    split at hb
    · cases ho <;> cases hb
    · next hne => exact ⟨hb, by simp [hinside, Ne.symm hne]⟩
  | enter a call hinside hcall =>
    exact h.keep hinv hs fun b t w k hb => .inl ⟨hb, by simp [hinside]⟩
  | newLock hinside => exact h.keep hinv hs fun b t w k hb => .inl ⟨hb, by simp [hinside]⟩
  | dropLock l hinside hl hunused =>
    exact h.keep hinv hs fun b t w k hb => .inl ⟨hb, by simp [hinside]⟩
  | intake a op p o hinside hcall ho =>
    refine h.keep hinv hs fun b t w k hb => ?_
    rw [System.submission?_apply hcall] at hb
    split at hb
    · next hba =>
      subst hba
      refine .inr ?_
      cases ho with
      | passed w k hfull =>
        cases hb
        -- Nothing happens between the test of the bound and the listing.
        refine .inr ⟨System.inside_apply .., ?_, fun u hu => ?_⟩
        · rw [System.state_apply, System.config_apply]
          exact hfull
        · rw [System.state_apply] at hu
          have hstarted := (hinv.sound.roster.mem_list_iff u).mp hu
          exact hinv.sound.roster.fresh u (by simp [hstarted])
      | admitted t w k r hr hadmitted =>
        cases hb
        refine .inl ?_
        rw [System.state_apply]
        simp [isAdmitted, Outcome.state, hr, hadmitted]
      | _ => cases hb
    · next hne => exact .inl ⟨hb, by simp [hinside, Ne.symm hne]⟩

/-- It holds of every system that can be reached. -/
theorem of_reachable {c : Config} (h : System.Reachable c sys) : Prompt sys := by
  induction h using System.Reachable.induction with
  | initial sys hstart =>
    obtain ⟨rounds, -, rfl⟩ := Invariant.exists_rounds_of_initial hstart
    exact nofun
  | step sys sys' hreach hs ih => exact ih.step (Invariant.of_reachable hreach) hs

end Prompt

/-! ### The order of the list -/

namespace State

variable {s s' : State}

/-- The list is in the order of the numbers, except that threads that were held back may stand
behind later ones. -/
def InOrder (s : State) : Prop :=
  s.threadList.Pairwise fun t u => t.raw < u.raw ∨ s.isAdmitted u = true

lemma Remains.inOrder (h : Remains s s') (horder : InOrder s) : InOrder s' :=
  (horder.sublist h.list).imp_of_mem fun _ hu => Or.imp_right (h.admitted _ hu)

/-- The order is kept when a thread is listed that was held back or has the latest number. -/
lemma InOrder.list (h : InOrder s) {t : ThreadId} (w : Work)
    (ht : s.isAdmitted t = true ∨ ∀ u ∈ s.threadList, u.raw < t.raw) : InOrder (s.list t w) := by
  have hlist : (s.list t w).threadList = s.threadList ++ [t] := rfl
  have hold : s.threadList.Pairwise fun u v => u.raw < v.raw ∨ (s.list t w).isAdmitted v = true :=
    h.imp (Or.imp_right (Submitters.isAdmitted_list w).trans)
  rw [InOrder, hlist]
  refine List.pairwise_append.mpr ⟨hold, List.pairwise_singleton _ _, fun u hu v hv => ?_⟩
  obtain rfl := List.mem_singleton.mp hv
  rcases ht with hadmitted | hlatest
  · exact .inr ((Submitters.isAdmitted_list w).trans hadmitted)
  · exact .inl (hlatest u hu)

/-- The list of a system that can be reached is in order. -/
theorem InOrder.of_reachable {c : Config} {sys : System} (h : System.Reachable c sys) :
    InOrder sys.state := by
  induction h using System.Reachable.induction with
  | initial sys hstart =>
    obtain ⟨rounds, -, rfl⟩ := Invariant.exists_rounds_of_initial hstart
    exact .nil
  | step sys sys' hreach hs ih =>
    rcases (Invariant.of_reachable hreach).remains_or_lists hs with
      hremains | ⟨a, t, w, k, hplace, hstate⟩
    · exact hremains.inOrder ih
    · rw [hstate]
      refine ih.list w ?_
      cases hadmitted : sys.state.isAdmitted t with
      | true => exact .inl rfl
      | false => exact .inr (Prompt.of_reachable hreach a t w k hplace hadmitted).2.2

end State

/-- No thread is listed twice, and whoever stands behind a thread with a later number was held back
for want of room when it took its own. So the threads that were not held back are listed in the
order in which they took their numbers. -/
theorem listed_in_order_unless_held_back {c : Config} {sys : System}
    (h : System.Reachable c sys) : sys.state.threadList.Nodup ∧
      sys.state.threadList.Pairwise
        (fun t u => t.raw < u.raw ∨ sys.state.isAdmitted u = true) ∧
      (sys.state.threadList.filter fun t => !sys.state.isAdmitted t).Pairwise
        fun t u => t.raw < u.raw := by
  have horder := InOrder.of_reachable h
  refine ⟨(Invariant.of_reachable h).sound.roster.list_nodup, horder, ?_⟩
  refine List.pairwise_filter.mpr (horder.imp fun {t u} hlt _ hu => ?_)
  exact hlt.resolve_right (by simpa using hu)

/-! ### A thread that is overtaken -/

/-- A scheduler for rounds of one primary, with room for one listed thread per primary and for one
more. -/
def narrowConfig : Config := { admissionFactor := 1, admissionSlack := 0 }

/-- The moves by which two threads are listed and a third one is held back; then the first one asks
for three primaries and begins the second round, which lacks one. -/
def growthMoves : List Move :=
  [.call (.client 0) (.submit .noop), .advance, .advance,
    .call (.client 0) (.submit .noop), .advance, .advance,
    .call (.client 1) (.submit .noop), .advance, .advance,
    .call (.unit ⟨0⟩) (.reconfigure (.both 3 1)), .advance, .advance, .advance, .advance,
    .call (.unit ⟨0⟩) .turn, .advance, .advance, .advance, .advance, .advance, .advance]

/-- The moves by which a fourth thread is listed at once and completes the round. The first one
retires, so the next round lets the third one through, which is listed last. -/
def overtakingMoves : List Move :=
  [.call (.client 0) (.submit .noop), .advance, .advance,
    .enter (.unit ⟨0⟩), .advance, .advance, .advance, .advance, .advance,
    .call (.unit ⟨0⟩) .retire, .advance, .advance, .advance,
    .call (.unit ⟨1⟩) .turn, .advance, .advance, .call (.unit ⟨3⟩) .turn, .advance, .advance,
    .call (.unit ⟨1⟩) .turn, .advance, .advance, .advance, .advance,
    .call (.unit ⟨3⟩) .turn, .advance, .advance, .advance, .advance, .advance, .advance,
    .enter (.client 1), .advance, .advance]

/-- The last thread of the list has an earlier number than the one before it, and it was held
back. -/
theorem listed_in_order_unless_held_back_overtaken :
    ∃ sys, System.run? narrowConfig (fun _ => true) (growthMoves ++ overtakingMoves) = some sys ∧
      sys.state.threadList = [⟨1⟩, ⟨3⟩, ⟨2⟩] ∧
      sys.state.threadList.Pairwise
        (fun t u => t.raw < u.raw ∨ sys.state.isAdmitted u = true) ∧
      sys.state.isAdmitted ⟨2⟩ = true := by
  obtain ⟨sys, hrun, hlist⟩ : ∃ sys,
      System.run? narrowConfig (fun _ => true) (growthMoves ++ overtakingMoves) = some sys ∧
      sys.state.threadList = [⟨1⟩, ⟨3⟩, ⟨2⟩] := ⟨_, rfl, rfl⟩
  have horder := (listed_in_order_unless_held_back (System.reachable_of_run? hrun)).2.1
  refine ⟨sys, hrun, hlist, horder, ?_⟩
  rw [hlist] at horder
  simpa using horder

/-- So the list is not always in the order of the numbers. -/
theorem exists_list_out_of_order : ∃ sys, System.Reachable narrowConfig sys ∧
    ¬sys.state.threadList.Pairwise fun t u => t.raw < u.raw := by
  obtain ⟨sys, hrun, hlist⟩ : ∃ sys,
      System.run? narrowConfig (fun _ => true) (growthMoves ++ overtakingMoves) = some sys ∧
      sys.state.threadList = [⟨1⟩, ⟨3⟩, ⟨2⟩] := ⟨_, rfl, rfl⟩
  refine ⟨sys, System.reachable_of_run? hrun, ?_⟩
  rw [hlist]
  decide

end RoundScheduler
