import RoundScheduler.Proofs.Admission
import RoundScheduler.Proofs.Faultlessness
import RoundScheduler.Proofs.TurnOrder

/-!
# The life of a thread

A thread has a number first. It may wait in the admission queue, and be let through by the start of
a round; then its submitter lists it, and a later start of a round takes it from the list when it
has retired. `Stage` names these four stages. Whenever nobody is inside the critical section, every
number that was handed out is at exactly one of them, the records are those of the first three, and
the counters tell how many threads are at the third one and have not retired.
-/

namespace RoundScheduler

open State

/-! ### What the journal says of listings -/

namespace State

/-- The threads that were ever listed, with their work, the earliest first. -/
def listings (s : State) : List (ThreadId × Work) := s.journal.reverse.filterMap Entry.listed?

/-- Whether a thread was ever listed. -/
def WasListed (s : State) (t : ThreadId) : Prop := ∃ w, (t, w) ∈ s.listings

variable {s s' : State} {t u : ThreadId}

lemma listings_append (new : Journal) (hjournal : s'.journal = new ++ s.journal) :
    s'.listings = s.listings ++ new.reverse.filterMap Entry.listed? := by
  rw [listings, hjournal, List.reverse_append, List.filterMap_append, listings]

/-- Entries that list nobody leave the listings as they are. -/
lemma listings_eq_of_silent (new : Journal) (hjournal : s'.journal = new ++ s.journal)
    (hsilent : ∀ e ∈ new, e.listed? = none) : s'.listings = s.listings := by
  have hnone : new.reverse.filterMap Entry.listed? = [] :=
    List.filterMap_eq_nil_iff.mpr fun e he => hsilent e (List.mem_reverse.mp he)
  rw [listings_append new hjournal, hnone, List.append_nil]

lemma listings_list (w : Work) : (s.list t w).listings = s.listings ++ [(t, w)] :=
  listings_append [.note (.listed t w)] rfl

lemma listings_beginRound : s.beginRound.listings = s.listings := by
  rw [listings, journal_beginRound, listings]

/-- No change lists anybody. -/
lemma Change.listings_eq {w : Option ThreadId} (hc : Change s w s') : s'.listings = s.listings := by
  have hturn : ∀ t slot, (s.afterTurn t slot).listings = s.listings := fun t slot => by
    refine listings_eq_of_silent [_, _] (by rw [afterTurn_eq]; rfl) ?_
    simp [Entry.listed?]
  have hentry : ∀ {s₁ s₂ : State} {e : Entry}, s₁.listings = s.listings →
      s₂.journal = e :: s₁.journal → e.listed? = none → s₂.listings = s.listings :=
    fun h hjournal he =>
      (listings_eq_of_silent [_] hjournal (by simpa using he)).trans h
  cases hc with
  | turn t slot | enqueue t slot => exact hturn t slot
  | grant t slot => exact hentry (hturn t slot) rfl rfl
  | stage t slot n steps c =>
    refine (listings_eq_of_silent [_, _] rfl ?_).trans (hturn t slot)
    simp [Entry.listed?]
  | retire t slot =>
    refine listings_eq_of_silent (_ :: s.retirementNotes t) (by rw [afterRetirement_eq]; rfl)
      fun e he => ?_
    rcases List.mem_cons.mp he with rfl | he
    · rfl
    · unfold retirementNotes at he
      split at he
      · cases he
      · cases List.mem_singleton.mp he
        rfl
  | bootstrap => exact listings_beginRound
  | next => exact listings_beginRound (s := s.closeRound)
  | start | handOver => exact hentry rfl rfl rfl
  | dropLock l hl =>
    refine listings_eq_of_silent (s.dropNotes l) (by rw [dropLock_eq hl]) fun e he => ?_
    unfold dropNotes at he
    split at he
    · cases he
    · split at he
      · cases he
      · cases List.mem_singleton.mp he
        rfl
  | _ => rfl

/-! ### Where threads go that leave the list -/

/-- Threads without a record, if their number was handed out, were listed and left the list, and
that they did after they retired. -/
structure Accounted (s : State) : Prop where
  /-- Whoever is on the list was put there. -/
  listed : ∀ t ∈ s.threadList, s.WasListed t
  /-- Whoever was put there is on it still, or retired in an earlier round. -/
  left : ∀ t, s.WasListed t → t ∈ s.threadList ∨ ∃ k < s.round, .terminated k t ∈ s.events
  /-- Whoever has no record any more was put there. -/
  gone : ∀ t, t.raw < s.nextThread.raw → s.record? t = none → s.WasListed t

lemma Roster.isSome_of_unstarted (ht : s.started? t = some false) : (s.record? t).isSome := by
  rw [isSome_record?_iff, ht]
  rfl

/-- A change takes the record only from those who were listed and retired. -/
lemma Change.record?_isSome {w : Option ThreadId} (hc : Change s w s') (hs : Sound s)
    (hlisted : t ∉ s.threadList) (ht : (s.record? t).isSome) : (s'.record? t).isSome := by
  have hunstarted : s.started? t = some false := by
    obtain ⟨r, hr⟩ := Option.isSome_iff_exists.mp ht
    have hnot : r.started = false :=
      Bool.eq_false_iff.mpr fun hstarted => hlisted (hs.roster.mem_list hr hstarted)
    simp [started?, hr, hnot]
  exact Roster.isSome_of_unstarted ((hc.patient hs).unstarted t hunstarted)

/-- Every change keeps the account. -/
theorem Change.accounted {w : Option ThreadId} (hc : Change s w s') (hs : Sound s)
    (hregistered : Registered s) (h : Accounted s) : Accounted s' := by
  have hwas : ∀ t, s'.WasListed t ↔ s.WasListed t := fun t => by
    rw [WasListed, hc.listings_eq, WasListed]
  have hround : s.round ≤ s'.round := by
    rcases hc.threadList_eq hs with ⟨heq, -⟩ | ⟨heq, -⟩ <;> omega
  refine ⟨fun t ht => ?_, fun t ht => ?_, fun t ht hnone => ?_⟩
  · exact (hwas t).mpr (h.listed t ((hc.threadList_sublist hs).mem ht))
  · rcases h.left t ((hwas t).mp ht) with hmem | ⟨k, hk, hterminated⟩
    · rcases hc.threadList_eq hs with ⟨-, hlist⟩ | ⟨hnext, hlist⟩
      · exact .inl (hlist ▸ hmem)
      · cases hflag : s.hasTerminated t with
        | false => exact .inl (hlist ▸ List.mem_filter.mpr ⟨hmem, by simp [hflag]⟩)
        | true =>
          exact .inr ⟨s.round, by omega, hc.events_subset (hregistered t hflag)⟩
    · exact .inr ⟨k, by omega, hc.events_subset hterminated⟩
  · rw [hc.nextThread_eq] at ht
    refine (hwas t).mpr ?_
    by_cases hmem : t ∈ s.threadList
    · exact h.listed t hmem
    · refine h.gone t ht (Option.not_isSome_iff_eq_none.mp fun hsome => ?_)
      simpa [hnone] using hc.record?_isSome hs hmem hsome

/-- Every arrival keeps the account. -/
theorem Arrival.accounted (ha : Arrival s s') (h : Accounted s) : Accounted s' := by
  have henrol : ∀ t, t.raw < s.enrol.nextThread.raw → s.enrol.record? t = none →
      s.enrol.WasListed t := by
    intro t ht hnone
    rw [record?_enrol] at hnone
    split at hnone
    · cases hnone
    next hne =>
    refine h.gone t ?_ hnone
    have hne : t.raw ≠ s.nextThread.raw := fun he => hne (congrArg ThreadId.mk he)
    have hlt : t.raw < s.nextThread.raw + 1 := ht
    omega
  cases ha with
  | enrol | block => exact ⟨h.listed, h.left, henrol⟩
  | list u w =>
    have hwas : ∀ t, (s.list u w).WasListed t ↔ s.WasListed t ∨ t = u := fun t => by
      simp [WasListed, listings_list, exists_or]
    have hmem : ∀ t, t ∈ (s.list u w).threadList ↔ t ∈ s.threadList ∨ t = u := fun t =>
      List.mem_append.trans (or_congr_right List.mem_singleton)
    refine ⟨fun t ht => (hwas t).mpr (((hmem t).mp ht).imp_left (h.listed t)), fun t ht => ?_,
      fun t ht hnone => (hwas t).mpr (.inl (h.gone t ht ?_))⟩
    · rw [hmem, events_list]
      rcases (hwas t).mp ht with hold | rfl
      · exact (h.left t hold).imp_left .inl
      · exact .inl (.inr rfl)
    · rw [record?_list] at hnone
      exact Option.map_eq_none_iff.mp hnone

end State

/-! ### Threads on their way to the list -/

namespace State

/-- No change makes a record or takes a thread from the list without taking its record. -/
lemma Change.started?_of_some {w : Option ThreadId} (hc : Change s w s') (hs : Sound s)
    (ht : s'.started? t = some false) : s.started? t = some false := by
  cases hc with
  | finish => rwa [started?_of_map record?_finish fun _ => rfl] at ht
  | awaitTurn => rwa [started?_of_map record?_awaitTurn fun _ => rfl] at ht
  | turn u slot | grant u slot | stage u slot =>
    exact (started?_of_map (record?_afterTurn slot) fun _ => rfl).symm.trans ht
  | enqueue u slot =>
    have hqueue := (started?_of_map record?_enqueue fun _ => rfl).symm.trans ht
    exact (started?_of_map (record?_afterTurn slot) fun _ => rfl).symm.trans hqueue
  | retire u slot => rwa [started?_of_map (record?_afterRetirement slot) fun _ => rfl] at ht
  | bootstrap =>
    rw [hs.roster.started?_beginRound] at ht
    exact (Option.ite_none_left_eq_some.mp ht).2
  | next =>
    have hclose : s.closeRound.started? t = s.started? t :=
      started?_of_map record?_closeRound fun _ => rfl
    rw [nextRound, hs.roster.closeRound.started?_beginRound] at ht
    exact hclose.symm.trans (Option.ite_none_left_eq_some.mp ht).2
  | choose => rwa [started?_of_map record?_choose fun _ => rfl] at ht
  | unlink u => rwa [started?_of_map (record?_detach [u]) fun _ => rfl] at ht
  | handOver => rwa [started?_of_map record?_handOver fun _ => rfl] at ht
  | dropLock l hl =>
    rw [dropLock_eq hl] at ht
    exact ht
  | _ => exact ht

/-- Whoever is held back, or was let through, stays so by a change until it is let through. -/
lemma Change.held {w : Option ThreadId} (hc : Change s w s') (hs : Sound s)
    (hunstarted : s.started? t = some false)
    (ht : t ∈ s.admissionQueue ∨ s.isAdmitted t = true) :
    t ∈ s'.admissionQueue ∨ s'.isAdmitted t = true := by
  have hrecord := Roster.isSome_of_unstarted ((hc.patient hs).unstarted t hunstarted)
  rcases ht with hqueue | hadmitted
  · cases hc.gate hs with
    | keep _ _ hsame => exact .inl (hsame ▸ hqueue)
    | begin _ _ hsame => exact .inl (hsame ▸ hqueue)
    | letThrough _ _ _ _ hthrough => exact .inr (by simp [hthrough t hrecord, hqueue])
  · exact .inr (hc.isAdmitted_mono hs hrecord hadmitted)

end State

/-- Every thread on its way to the list has a submitter who brings it. -/
structure Attended (sys : System) : Prop where
  /-- Whoever has not started is brought by somebody. -/
  brought : ∀ t, sys.state.started? t = some false →
    ∃ a p, sys.submission? a = some p ∧ p.thread? = some t
  /-- Whoever waits for admission is in the queue, or was let through. -/
  waiting : ∀ a t w k, sys.submission? a = some (.awaitAdmission t w k) →
    t ∈ sys.state.admissionQueue ∨ sys.state.isAdmitted t = true
  /-- Whoever is about to list a thread is inside the critical section. -/
  inside : ∀ a t w k, sys.submission? a = some (.list t w k) → sys.inside = some a

namespace Attended

variable {sys sys' : System} {a : Agent} {t : ThreadId} {op : Operation} {o : Outcome}

/-- A move that is no submitter's keeps it. -/
lemma keep (h : Attended sys) (hinv : Invariant sys) {w : Option ThreadId}
    (hc : Change sys.state w sys'.state)
    (hplaces : ∀ b p, p.thread?.isSome → (sys'.submission? b = some p ↔ sys.submission? b = some p))
    (hinside : ∀ b, (sys.submission? b).isSome → sys.inside = some b → sys'.inside = some b) :
    Attended sys' := by
  refine ⟨fun t ht => ?_, fun b t w k hb => ?_, fun b t w k hb => ?_⟩
  · obtain ⟨b, p, hb, hp⟩ := h.brought t (hc.started?_of_some hinv.sound ht)
    exact ⟨b, p, (hplaces b p (by simp [hp])).mpr hb, hp⟩
  · have hb := (hplaces b _ rfl).mp hb
    exact hc.held hinv.sound (hinv.submitters.unstarted b _ t hb rfl) (h.waiting b t w k hb)
  · have hb := (hplaces b _ rfl).mp hb
    exact hinside b (by simp [hb]) (h.inside b t w k hb)

/-- It is kept when the submitter `a` goes from the place `p` to the place `q?`, if it has one. -/
lemma update (h : Attended sys) {p : Submission} {q? : Option Submission}
    (hinside : sys.inside = some a) (ha : sys.submission? a = some p)
    (hsame : ∀ b, sys'.submission? b = if b = a then q? else sys.submission? b)
    (hunstarted : ∀ t, sys'.state.started? t = some false →
      (∃ q, q? = some q ∧ q.thread? = some t) ∨
        sys.state.started? t = some false ∧ p.thread? ≠ some t)
    (hheld : ∀ b t w k, b ≠ a → sys.submission? b = some (.awaitAdmission t w k) →
      t ∈ sys'.state.admissionQueue ∨ sys'.state.isAdmitted t = true)
    (hwaiting : ∀ t w k, q? = some (.awaitAdmission t w k) →
      t ∈ sys'.state.admissionQueue ∨ sys'.state.isAdmitted t = true)
    (hlisting : ∀ t w k, q? = some (.list t w k) → sys'.inside = some a) : Attended sys' := by
  refine ⟨fun t ht => ?_, fun b t w k hb => ?_, fun b t w k hb => ?_⟩
  · rcases hunstarted t ht with ⟨q, hq, hqt⟩ | ⟨hbefore, hp⟩
    · exact ⟨a, q, by rw [hsame, if_pos rfl, hq], hqt⟩
    · obtain ⟨b, p', hb, hp'⟩ := h.brought t hbefore
      have hne : b ≠ a := by
        rintro rfl
        exact hp (Option.some_inj.mp (ha.symm.trans hb) ▸ hp')
      exact ⟨b, p', by rw [hsame, if_neg hne, hb], hp'⟩
  · rw [hsame] at hb
    split at hb
    · exact hwaiting t w k hb
    · next hne => exact hheld b t w k hne hb
  · rw [hsame] at hb
    split at hb
    · next hba => exact hba ▸ hlisting t w k hb
    · -- Only whoever is inside the critical section is about to list a thread.
      next hne => exact absurd (Option.some_inj.mp ((h.inside b t w k hb).symm.trans hinside)) hne

/-- What a submitter does keeps it, if workers can be named. -/
lemma intake (h : Attended sys) (hinv : Invariant sys) (hnames : sys.config.namesWorkers = true)
    (hinside : sys.inside = some a) {p : Submission}
    (hcall : sys.calls.get? a = some ⟨op, .submission p⟩)
    (ho : Intake sys.config sys.state p o) : Attended (sys.apply a op o) := by
  have ha := Submitters.submission?_of_call hcall
  have hplace := @System.submission?_apply sys a op o _ hcall
  -- Nobody else's thread is concerned.
  have hheld : ∀ b t w k, b ≠ a → sys.submission? b = some (.awaitAdmission t w k) →
      t ∈ (sys.apply a op o).state.admissionQueue ∨
        (sys.apply a op o).state.isAdmitted t = true := by
    intro b t w k _ hb
    have hqueue : sys.state.admissionQueue ⊆ (o.state sys.state).admissionQueue := by
      cases ho with
      | blocked => exact List.subset_append_left _ _
      | _ => exact List.Subset.refl _
    rw [System.state_apply]
    rcases hinv.intake_arrival hcall ho with heq | harrival
    · exact heq.symm ▸ h.waiting b t w k hb
    · rw [harrival.isAdmitted_eq hinv.sound (hinv.isSome_of_submission hb rfl)]
      exact (h.waiting b t w k hb).imp_left (@hqueue t)
  have hlisted : ∀ t w q?, sys.submission? a = some (.list t w q?) →
      ∀ u, (sys.state.list t w).started? u = some false →
        sys.state.started? u = some false ∧ some t ≠ some u := by
    intro t w q? hq u hu
    rw [Roster.started?_list] at hu
    split at hu
    · obtain ⟨-, -, hfalse⟩ := Option.map_eq_some_iff.mp hu
      cases hfalse
    · next hne => exact ⟨hu, fun he => hne (Option.some_inj.mp he).symm⟩
  have henrolled : ∀ t, sys.state.enrol.started? t = some false →
      t = sys.state.nextThread ∨ sys.state.started? t = some false := by
    intro t ht
    rw [Roster.started?_enrol] at ht
    split at ht
    · next heq => exact .inl heq
    · exact .inr ht
  cases ho with
  | blocked w k hfull =>
    refine h.update hinside ha hplace (fun t ht => ?_) hheld (fun t w k hq => ?_) nofun
    · rw [System.state_apply] at ht
      rcases henrolled t ht with rfl | hbefore
      · exact .inl ⟨_, rfl, rfl⟩
      · exact .inr ⟨hbefore, nofun⟩
    · cases hq
      rw [System.state_apply]
      exact .inl (List.mem_append_right _ List.mem_cons_self)
  | passed w k hfull =>
    refine h.update hinside ha hplace (fun t ht => ?_) hheld nofun fun _ _ _ _ => rfl
    rw [System.state_apply] at ht
    rcases henrolled t ht with rfl | hbefore
    · exact .inl ⟨_, rfl, rfl⟩
    · exact .inr ⟨hbefore, nofun⟩
  | sleepForAdmission t w k r hr hadmitted =>
    refine ⟨h.brought, h.waiting, fun b u w k hb => ?_⟩
    -- Whoever goes to sleep is about to list nobody.
    obtain rfl : b = a := Option.some_inj.mp ((h.inside b u w k hb).symm.trans hinside)
    cases ha.symm.trans hb
  | admitted t w k r hr hadmitted =>
    refine h.update hinside ha hplace (fun u hu => ?_) hheld nofun fun _ _ _ _ => rfl
    by_cases hut : some t = some u
    · exact .inl ⟨_, rfl, hut⟩
    · exact .inr ⟨hu, hut⟩
  | listed t w | listedToCount t w | listedWithMore t w | listedLast t w =>
    exact h.update hinside ha hplace (fun u hu => .inr (hlisted t w _ ha u hu)) hheld nofun nofun
  | unnamed t w k hunnamed => exact absurd (hunnamed.symm.trans hnames) Bool.false_ne_true
  | lacking | sufficient =>
    exact h.update hinside ha hplace (fun u hu => .inr ⟨hu, nofun⟩) hheld nofun nofun

/-- Every move keeps it, if workers can be named. -/
theorem step (h : Attended sys) (hinv : Invariant sys) (hnames : sys.config.namesWorkers = true)
    (hs : System.Step sys sys') : Attended sys' := by
  obtain ⟨eligible, m, hm⟩ := hs
  cases hinv.transition hm with
  | call a op o hinside hidle halive hlocks ho =>
    refine h.keep hinv (w := none) (by rw [System.state_apply]; exact ho.change) (fun b p hp => ?_)
      fun b _ hb => by cases hb.symm.trans hinside
    rw [System.submission?_apply hidle]
    split
    · next hba =>
      have hnone : sys.submission? b = none := by rw [hba, System.submission?, hidle]; rfl
      rw [hnone]
      refine iff_of_false (fun hq => ?_) (by simp)
      cases ho <;> cases hq <;> cases hp
    · rfl
  | stretch t op ph o hinside hcall hop ho =>
    refine h.keep hinv (by rw [System.state_apply]; exact hinv.stretch_change hcall hop ho)
      (fun b p hp => ?_) fun b hb hb' => ?_
    · rw [System.submission?_apply hcall]
      split
      · next hba =>
        have hnone : sys.submission? b = none := by rw [hba, System.submission?, hcall]; rfl
        rw [hnone]
        refine iff_of_false (fun hq => ?_) (by simp)
        cases ho <;> cases hq
      · rfl
    · cases hb'.symm.trans hinside
      rw [System.submission?, hcall] at hb
      cases hb
  | intake a op p o hinside hcall ho => exact h.intake hinv hnames hinside hcall ho
  | enter a call hinside =>
    exact h.keep hinv (.stay (w := none)) (fun _ _ _ => .rfl)
      fun b _ hb => by cases hb.symm.trans hinside
  | newLock hinside =>
    exact h.keep hinv (.newLock (w := none)) (fun _ _ _ => .rfl)
      fun b _ hb => by cases hb.symm.trans hinside
  | dropLock l hinside hl hunused =>
    exact h.keep hinv (.dropLock (w := none) l hl (hinv.unlinked hunused)) (fun _ _ _ => .rfl)
      fun b _ hb => by cases hb.symm.trans hinside

end Attended

/-- What is known of the threads of a system that can be reached. -/
structure Conserved (sys : System) : Prop where
  registered : Registered sys.state
  accounted : Accounted sys.state
  attended : Attended sys

theorem Conserved.of_reachable {c : Config} {sys : System} (hnames : c.namesWorkers = true)
    (h : System.Reachable c sys) : Conserved sys := by
  induction h using System.Reachable.induction with
  | initial sys hstart =>
    obtain ⟨rounds, -, rfl⟩ := Invariant.exists_rounds_of_initial hstart
    exact ⟨nofun, ⟨nofun, nofun, nofun⟩, ⟨nofun, nofun, nofun⟩⟩
  | step sys sys' hreach hs ih =>
    have hinv := Invariant.of_reachable hreach
    have hattended := ih.attended.step hinv (hreach.config_eq.symm ▸ hnames) hs
    rcases hinv.effect hs with ⟨w, hchange⟩ | harrival
    · exact ⟨hchange.registered hinv.sound ih.registered,
        hchange.accounted hinv.sound ih.registered ih.accounted, hattended⟩
    · exact ⟨harrival.registered hinv.sound ih.registered, harrival.accounted ih.accounted,
        hattended⟩

/-! ### Stages -/

/-- A stage in the life of a thread that has a number. -/
inductive Stage where
  /-- It waits in the admission queue. -/
  | waiting
  /-- It was let through, and its submitter has not listed it yet. -/
  | admitted
  /-- It is listed. -/
  | listed
  /-- It was listed, and it was taken from the list. -/
  | removed
  deriving DecidableEq

/-- The thread `t` is at a stage. -/
def System.IsAt (sys : System) (t : ThreadId) : Stage → Prop
  | .waiting => t ∈ sys.state.admissionQueue
  | .admitted => sys.state.isAdmitted t = true ∧
      ∃ a w k, sys.submission? a = some (.awaitAdmission t w k)
  | .listed => t ∈ sys.state.threadList
  | .removed => sys.state.WasListed t ∧ t ∉ sys.state.threadList

namespace Conserved

variable {c : Config} {sys : System} {t : ThreadId} {k : Stage}

/-- The record of a thread tells at which stages it can be. -/
lemma started?_of_isAt (h : Conserved sys) (hrecorded : Recorded sys) (hk : sys.IsAt t k) :
    sys.state.started? t = match k with
      | .waiting | .admitted => some false
      | .listed => some true
      | .removed => none := by
  have hinv := hrecorded.invariant
  cases k with
  | waiting => exact hinv.sound.roster.waiting t hk
  | admitted =>
    obtain ⟨-, a, w, k, ha⟩ := hk
    exact hinv.submitters.unstarted a _ t ha rfl
  | listed => exact (hinv.sound.roster.mem_list_iff t).mp hk
  | removed =>
    -- Whoever has a record and retired is on the list.
    obtain ⟨k, -, hterminated⟩ := (h.accounted.left t hk.1).resolve_left hk.2
    have hburied := hrecorded.chronicle.buried k t hterminated
    refine Option.eq_none_iff_forall_ne_some.mpr fun started hstarted => ?_
    obtain ⟨r, hr, rfl⟩ := Option.map_eq_some_iff.mp hstarted
    have hprimary := (hinv.sound.seating.truthful t r hr).primary
      (.inr (.inr (.inl (hburied.2 r hr))))
    exact hk.2 (hinv.sound.roster.mem_list hr (hinv.sound.seating.started t r hr hprimary))

/-- No thread is at two stages. -/
lemma isAt_unique (h : Conserved sys) (hrecorded : Recorded sys) {k' : Stage}
    (hk : sys.IsAt t k) (hk' : sys.IsAt t k') : k = k' := by
  have hstarted := (h.started?_of_isAt hrecorded hk).symm.trans (h.started?_of_isAt hrecorded hk')
  -- Whoever is in the queue was not let through.
  have hqueue : t ∈ sys.state.admissionQueue → sys.state.isAdmitted t ≠ true := fun ht hadmitted =>
    Bool.false_ne_true ((hrecorded.invariant.submitters.waiting t ht).1.symm.trans hadmitted)
  cases k <;> cases k' <;> first
    | rfl
    | exact absurd hk'.1 (hqueue hk)
    | exact absurd hk.1 (hqueue hk')
    | cases hstarted

/-- Every thread with a number is at a stage while nobody is inside the critical section. -/
lemma exists_isAt (h : Conserved sys) (hroster : sys.state.Roster) (hfree : sys.inside = none)
    (ht : t.raw < sys.state.nextThread.raw) : ∃ k, sys.IsAt t k := by
  cases hstarted : sys.state.started? t with
  | none =>
    have hnone : sys.state.record? t = none := Option.map_eq_none_iff.mp hstarted
    refine ⟨.removed, h.accounted.gone t ht hnone, fun hmem => ?_⟩
    exact Option.some_ne_none true (((hroster.mem_list_iff t).mp hmem).symm.trans hstarted)
  | some started =>
    cases started with
    | true => exact ⟨.listed, (hroster.mem_list_iff t).mpr hstarted⟩
    | false =>
      obtain ⟨a, p, ha, hp⟩ := h.attended.brought t hstarted
      cases p with
      | awaitAdmission u w k =>
        cases hp
        rcases h.attended.waiting a t w k ha with hqueue | hadmitted
        · exact ⟨.waiting, hqueue⟩
        · exact ⟨.admitted, hadmitted, a, w, k, ha⟩
      | list u w k => cases (h.attended.inside a u w k ha).symm.trans hfree
      | _ => cases hp

end Conserved

/-- If workers can be named, and nobody is inside the critical section: no thread is listed twice;
every number that was handed out is at exactly one stage, and the records are those of the threads
that wait, were let through or are listed; a thread is removed only after it retired in an earlier
round; whoever retired and is still listed is a primary of the current round; and the threads that
were ever listed, less those that retired, are the listed ones that have not, which the counters
tell. -/
theorem threads_conserved {c : Config} {sys : System} (hnames : c.namesWorkers = true)
    (h : System.Reachable c sys) (hfree : sys.inside = none) :
    sys.state.threadList.Nodup ∧
    (∀ t, t.raw < sys.state.nextThread.raw → ∃! k, sys.IsAt t k) ∧
    (∀ t, (sys.state.record? t).isSome ↔
      sys.IsAt t .waiting ∨ sys.IsAt t .admitted ∨ sys.IsAt t .listed) ∧
    (∀ t, sys.IsAt t .removed → ∃ k < sys.state.round, .terminated k t ∈ sys.state.events) ∧
    (∀ t ∈ sys.state.threadList, sys.state.hasTerminated t = true → t ∈ sys.state.primaries) ∧
    sys.state.terminated + sys.state.threadList.countP (fun t => !sys.state.hasTerminated t) =
      sys.state.scheduled ∧
    ∃ summary, sys.state.summary = .ok summary ∧ summary.inFlight? =
      .ok (sys.state.threadList.countP fun t => !sys.state.hasTerminated t) := by
  have hconserved := Conserved.of_reachable hnames h
  have hrecorded := Recorded.of_reachable h
  have htally := (Sane.of_reachable h).tallied
  have hsound := hrecorded.invariant.sound
  refine ⟨hsound.roster.list_nodup, fun t ht => ?_, fun t => ⟨fun hrecord => ?_, ?_⟩,
    fun t ht => ?_, fun t ht hterminated => ?_, htally, hsound.summary_eq htally⟩
  · obtain ⟨k, hk⟩ := hconserved.exists_isAt hsound.roster hfree ht
    exact ⟨k, hk, fun k' hk' => hconserved.isAt_unique hrecorded hk' hk⟩
  · rw [isSome_record?_iff] at hrecord
    obtain ⟨k, hk⟩ := hconserved.exists_isAt hsound.roster hfree (hsound.roster.fresh t hrecord)
    cases k with
    | waiting => exact .inl hk
    | admitted => exact .inr (.inl hk)
    | listed => exact .inr (.inr hk)
    | removed => simp [hconserved.started?_of_isAt hrecorded hk] at hrecord
  · rw [isSome_record?_iff]
    rintro (hk | hk | hk) <;> rw [hconserved.started?_of_isAt hrecorded hk] <;> rfl
  · exact (hconserved.accounted.left t ht.1).resolve_left ht.2
  · obtain ⟨r, hr, hflag⟩ := (Option.any_eq_true _ _).mp hterminated
    exact (hsound.seating.primary_of_mem hr).mp
      ((hsound.seating.truthful t r hr).primary (.inr (.inr (.inl hflag))))

/-! ### All stages at once -/

/-- The moves by which, with a bound of one listed thread, two of four threads are held back until
the first one retires and is removed; then a fifth thread is listed at once and a sixth one is held
back. -/
def allStages : List Move :=
  [.call (.client 0) (.submit .noop), .advance, .advance,
    .call (.client 0) (.submit .noop), .advance, .advance,
    .call (.client 1) (.submit .noop), .advance, .advance,
    .call (.client 2) (.submit .noop), .advance, .advance,
    .call (.unit ⟨0⟩) .retire, .advance, .advance, .advance, .advance, .advance, .advance,
    .advance, .advance,
    .call (.client 0) (.submit .noop), .advance, .advance,
    .call (.client 3) (.submit .noop), .advance, .advance]

/-- Threads are at all four stages, each at one of them, and the counters tell of two threads. -/
theorem threads_conserved_allStages : ∃ sys,
    System.run? { admissionFactor := 1, admissionSlack := 0 } (fun _ => true) allStages = some sys ∧
      sys.inside = none ∧ sys.IsAt ⟨0⟩ .removed ∧ sys.IsAt ⟨1⟩ .listed ∧ sys.IsAt ⟨2⟩ .admitted ∧
      sys.IsAt ⟨5⟩ .waiting ∧ (∃! k, sys.IsAt ⟨2⟩ k) ∧
      (∃ k < sys.state.round, .terminated k ⟨0⟩ ∈ sys.state.events) ∧
      ∃ summary, sys.state.summary = .ok summary ∧ summary.inFlight? = .ok 2 := by
  obtain ⟨sys, hrun, hfree, hnext, hlist, hqueue, hadmitted, hlistings, hplace, hcount⟩ : ∃ sys,
      System.run? { admissionFactor := 1, admissionSlack := 0 } (fun _ => true) allStages =
        some sys ∧ sys.inside = none ∧ sys.state.nextThread = ⟨6⟩ ∧
      sys.state.threadList = [⟨1⟩, ⟨4⟩] ∧ sys.state.admissionQueue = [⟨5⟩] ∧
      sys.state.isAdmitted ⟨2⟩ = true ∧
      sys.state.listings = [(⟨0⟩, .noop), (⟨1⟩, .noop), (⟨4⟩, .noop)] ∧
      sys.submission? (.client 1) = some (.awaitAdmission ⟨2⟩ .noop .answer) ∧
      sys.state.threadList.countP (fun t => !sys.state.hasTerminated t) = 2 :=
    ⟨_, rfl, rfl, rfl, rfl, rfl, rfl, rfl, rfl, rfl⟩
  obtain ⟨-, hstages, -, hremoved, -, -, hsummary⟩ :=
    threads_conserved rfl (System.reachable_of_run? hrun) hfree
  have hfirst : sys.IsAt ⟨0⟩ .removed := by
    refine ⟨⟨.noop, ?_⟩, ?_⟩
    · rw [hlistings]
      exact List.mem_cons_self
    · rw [hlist]
      decide
  refine ⟨sys, hrun, hfree, hfirst, ?_, ⟨hadmitted, _, _, _, hplace⟩, ?_,
    hstages ⟨2⟩ (by rw [hnext]; decide), hremoved ⟨0⟩ hfirst, hcount ▸ hsummary⟩
  · show (⟨1⟩ : ThreadId) ∈ sys.state.threadList
    rw [hlist]
    decide
  · show (⟨5⟩ : ThreadId) ∈ sys.state.admissionQueue
    rw [hqueue]
    decide

end RoundScheduler
