import RoundScheduler.Proofs.Effects

/-!
# Threads on their way to the list

A submitter brings a thread that did not start yet, no two submitters bring the same one, and the
threads in the admission queue are those whose submitters wait. This file states the agreement and
shows that every move keeps it.
-/

namespace RoundScheduler

open State

namespace State

/-- Whether a thread was let through after waiting for admission, as far as it has a record. -/
def isAdmitted (s : State) (t : ThreadId) : Bool := (s.record? t).any (·.admitted)

variable {s s' : State} {t : ThreadId}

/-- What threads on their way to the list see of a change that is no arrival. -/
structure Patient (s s' : State) : Prop where
  /-- They stay on their way. -/
  unstarted : ∀ t, s.started? t = some false → s'.started? t = some false
  /-- They leave the queue at most, and whoever stays in it was not let through. -/
  waiting : ∀ t ∈ s'.admissionQueue, t ∈ s.admissionQueue ∧
    (s.isAdmitted t = false → s'.isAdmitted t = false)

/-- Without a change nobody leaves the queue. -/
lemma Patient.refl (s : State) : Patient s s := ⟨fun _ => id, fun _ ht => ⟨ht, id⟩⟩

/-- Two patient changes make one. -/
lemma Patient.trans {s'' : State} (h : Patient s s') (h' : Patient s' s'') : Patient s s'' where
  unstarted t ht := h'.unstarted t (h.unstarted t ht)
  waiting t ht :=
    have ⟨hqueue', hkept'⟩ := h'.waiting t ht
    have ⟨hqueue, hkept⟩ := h.waiting t hqueue'
    ⟨hqueue, hkept' ∘ hkept⟩

/-- A change that leaves starts, admissions and the queue is patient. -/
lemma Patient.of_map {g : ThreadId → ThreadRecord → ThreadRecord}
    (hrecord : ∀ u, s'.record? u = (s.record? u).map (g u))
    (hg : ∀ u r, (g u r).started = r.started ∧ (g u r).admitted = r.admitted)
    (hqueue : s'.admissionQueue = s.admissionQueue) : Patient s s' where
  unstarted t ht := (started?_of_map (hrecord t) fun r => (hg t r).1).trans ht
  waiting t ht := by
    refine ⟨hqueue ▸ ht, fun hadmitted => ?_⟩
    rw [isAdmitted] at hadmitted ⊢
    rw [hrecord]
    cases hr : s.record? t with
    | none => rfl
    | some r => simpa [hr, hg] using hadmitted

/-- A change that leaves the records and the queue is patient. -/
lemma Patient.congr (hrecord : ∀ u, s'.record? u = s.record? u)
    (hqueue : s'.admissionQueue = s.admissionQueue) : Patient s s' :=
  .of_map (g := fun _ r => r) (fun u => (hrecord u).trans Option.map_id'.symm)
    (fun _ _ => ⟨rfl, rfl⟩) hqueue

/-- When a round begins, whoever leaves the queue was let through. -/
lemma Roster.patient_beginRound (h : Roster s) : Patient s s.beginRound where
  unstarted t ht := by simp [h.started?_beginRound, ht]
  waiting t ht := by
    rw [admissionQueue_beginRound] at ht
    split at ht
    · cases ht
    · next hadmits =>
      refine ⟨ht, fun hadmitted => ?_⟩
      rw [isAdmitted] at hadmitted ⊢
      rw [record?_beginRound h.keys_nodup]
      cases hr : s.record? t with
      | none => rfl
      | some r =>
        have hr' : r.admitted = false := by simpa [hr] using hadmitted
        cases hf : (some r).filter fun r => !(r.terminated && t ∈ s.threadList) with
        | none => rfl
        | some r' =>
          obtain ⟨hrr', -⟩ := Option.filter_eq_some_iff.mp hf
          cases hrr'
          simp [hadmits, hr']

/-- No change but an arrival concerns threads on their way to the list. -/
lemma Change.patient {w : Option ThreadId} (hc : Change s w s') (h : Sound s) : Patient s s' := by
  have hturn : ∀ t slot, Patient s (s.afterTurn t slot) := fun t slot =>
    .of_map (fun _ => record?_afterTurn slot) (fun _ _ => ⟨rfl, rfl⟩) (by rw [afterTurn_eq])
  cases hc with
  | stay => exact .refl s
  | finish t slot hslot hout => exact .of_map (fun _ => record?_finish) (fun _ _ => ⟨rfl, rfl⟩) rfl
  | awaitTurn t slot hslot hin hhead =>
    exact .of_map (fun _ => record?_awaitTurn) (fun _ _ => ⟨rfl, rfl⟩) rfl
  | turn t slot hslot hhead => exact hturn t slot
  | grant t slot l k hslot hhead hk hfree => exact (hturn t slot).trans (.congr (fun _ => rfl) rfl)
  | enqueue t slot l k hslot hhead hk howned hother hlink =>
    exact (hturn t slot).trans (.of_map (fun _ => record?_enqueue) (fun _ _ => ⟨rfl, rfl⟩) rfl)
  | stage t slot n steps c hslot hhead hc =>
    exact (hturn t slot).trans (.congr (fun _ => rfl) rfl)
  | retire t slot hslot hterminated hawake =>
    exact .of_map (fun _ => record?_afterRetirement slot) (fun _ _ => ⟨rfl, rfl⟩)
      (by rw [afterRetirement_eq])
  | bootstrap hround => exact h.roster.patient_beginRound
  | next hround hfull hstuck =>
    have hclose : Patient s s.closeRound :=
      .of_map (fun _ => record?_closeRound) (fun _ _ => ⟨rfl, rfl⟩) rfl
    exact hclose.trans h.roster.closeRound.patient_beginRound
  | choose t hround hlen halive hnew =>
    exact .of_map (fun _ => record?_choose) (fun _ _ => ⟨rfl, rfl⟩) rfl
  | start order hround hfull => exact .congr (fun _ => rfl) rfl
  | unlink t l hlink => exact .of_map (fun _ => record?_detach [t]) (fun _ _ => ⟨rfl, rfl⟩) rfl
  | forget t l hlink => exact .congr (fun _ => rfl) rfl
  | release t l k hk howner hqueue => exact .congr (fun _ => rfl) rfl
  | handOver t l k next rest hk howner hqueue =>
    exact .of_map (fun _ => record?_handOver) (fun _ _ => ⟨rfl, rfl⟩) rfl
  | newLock => exact .congr (fun _ => rfl) rfl
  | dropLock l hl hunused =>
    rw [dropLock_eq hl]
    exact .congr (fun _ => rfl) rfl

end State

/-! ### Submitters -/

/-- The place of a submitter, if it is one. -/
def Point.submission? : Point → Option Submission
  | thread _ _ => none
  | submission p => some p

/-- The place of an agent, if it is one of a submitter. -/
def System.submission? (sys : System) (a : Agent) : Option Submission :=
  (sys.calls.get? a).bind fun call => call.point.submission?

/-- A move changes the submission of the agent that makes it only. -/
lemma System.submission?_apply {sys : System} {a : Agent} {op : Operation} {o : Outcome}
    {call? : Option Call} (hcall : sys.calls.get? a = call?) (b : Agent) :
    (sys.apply a op o).submission? b =
      if b = a then (o.call? call? op).bind fun call => call.point.submission?
      else sys.submission? b := by
  rw [System.submission?, System.get?_calls_apply, hcall]
  split <;> rfl

/-- The threads that submitters bring agree with the state. -/
structure Submitters (sys : System) : Prop where
  /-- A thread that is brought did not start. -/
  unstarted : ∀ a p t, sys.submission? a = some p → p.thread? = some t →
    sys.state.started? t = some false
  /-- Nobody else brings the same thread. -/
  distinct : ∀ a b p q t, sys.submission? a = some p → sys.submission? b = some q →
    p.thread? = some t → q.thread? = some t → a = b
  /-- The threads in the queue are those whose submitters wait and were not let through. -/
  waiting : ∀ t ∈ sys.state.admissionQueue, sys.state.isAdmitted t = false ∧
    ∃ a w k, sys.submission? a = some (.awaitAdmission t w k)

namespace Submitters

variable {sys sys' : System} {a : Agent} {t : ThreadId}

/-- The agreement is kept by a change that is no arrival if nobody brings a new thread and whoever
waits goes on waiting. -/
lemma keep (h : Submitters sys) (hpatient : State.Patient sys.state sys'.state)
    (hbrought : ∀ b p t, sys'.submission? b = some p → p.thread? = some t →
      sys.submission? b = some p)
    (hkept : ∀ b t w k, sys.submission? b = some (.awaitAdmission t w k) →
      sys'.submission? b = some (.awaitAdmission t w k)) : Submitters sys' where
  unstarted b p t hb hp := hpatient.unstarted t (h.unstarted b p t (hbrought b p t hb hp) hp)
  distinct b c p q t hb hc hp hq :=
    h.distinct b c p q t (hbrought b p t hb hp) (hbrought c q t hc hq) hp hq
  waiting t ht := by
    obtain ⟨hqueue, hadmitted⟩ := hpatient.waiting t ht
    obtain ⟨hwaits, b, w, k, hb⟩ := h.waiting t hqueue
    exact ⟨hadmitted hwaits, b, w, k, hkept b t w k hb⟩

/-- A thread that is to be listed is not in the queue any more. -/
lemma not_mem_queue (h : Submitters sys) {w : Work} {k : AfterListing}
    (ha : sys.submission? a = some (.list t w k)) : t ∉ sys.state.admissionQueue := by
  intro hmem
  obtain ⟨-, b, w', k', hb⟩ := h.waiting t hmem
  cases h.distinct a b _ _ t ha hb rfl rfl
  cases ha.symm.trans hb

/-- The agreement is kept when the submitter `a` goes from the place `p` to the place `q?`, if it
has one. -/
lemma update (h : Submitters sys) {p : Submission} {q? : Option Submission}
    (ha : sys.submission? a = some p)
    (hsame : ∀ b, sys'.submission? b = if b = a then q? else sys.submission? b)
    (hunstarted : ∀ t, sys.state.started? t = some false → p.thread? ≠ some t →
      sys'.state.started? t = some false)
    (hnew : ∀ q t, q? = some q → q.thread? = some t → sys'.state.started? t = some false ∧
      (sys.state.started? t = none ∨ p.thread? = some t))
    (hwaiting : ∀ t ∈ sys'.state.admissionQueue, sys'.state.isAdmitted t = false ∧
      ((t ∈ sys.state.admissionQueue ∧ ∀ w k, p ≠ .awaitAdmission t w k) ∨
        ∃ w k, q? = some (.awaitAdmission t w k))) : Submitters sys' := by
  -- A thread that `a` goes on with is brought by nobody else.
  have hother : ∀ b q q' t, q? = some q → q.thread? = some t → sys.submission? b = some q' →
      q'.thread? = some t → b = a := by
    intro b q q' t hq ht hb ht'
    rcases (hnew q t hq ht).2 with hnone | hp
    · exact absurd (hnone.symm.trans (h.unstarted b q' t hb ht')) nofun
    · exact h.distinct b a q' p t hb ha ht' hp
  constructor
  case unstarted =>
    intro b q t hb ht
    rw [hsame] at hb
    split at hb
    · exact (hnew q t hb ht).1
    · next hne =>
      exact hunstarted t (h.unstarted b q t hb ht) fun hp => hne (h.distinct b a q p t hb ha ht hp)
  case distinct =>
    intro b c q q' t hb hc ht ht'
    rw [hsame] at hb hc
    split at hb <;> split at hc
    · next hba hca => exact hba.trans hca.symm
    · next hba hca => exact absurd (hother c q q' t hb ht hc ht') hca
    · next hba hca => exact absurd (hother b q' q t hc ht' hb ht) hba
    · exact h.distinct b c q q' t hb hc ht ht'
  case waiting =>
    intro t ht
    obtain ⟨hadmitted, ⟨hqueue, hleft⟩ | ⟨w, k, hq⟩⟩ := hwaiting t ht
    · obtain ⟨-, b, w, k, hb⟩ := h.waiting t hqueue
      have hne : b ≠ a := by
        rintro rfl
        exact hleft w k (Option.some_inj.mp (ha.symm.trans hb))
      exact ⟨hadmitted, b, w, k, by rw [hsame, if_neg hne, hb]⟩
    · exact ⟨hadmitted, a, w, k, by rw [hsame, if_pos rfl, hq]⟩

/-! ### What a submitter does -/

section Intake

variable {op : Operation} {p : Submission} {o : Outcome}

/-- The place of a submitter after an outcome. -/
def after? (op : Operation) (p : Submission) (o : Outcome) : Option Submission :=
  (o.call? (some ⟨op, .submission p⟩) op).bind fun call => call.point.submission?

/-- The submission of an agent is told by its call. -/
lemma submission?_of_call (hcall : sys.calls.get? a = some ⟨op, .submission p⟩) :
    sys.submission? a = some p := by
  rw [System.submission?, hcall]
  rfl

/-- The agreement is kept by a submitter that brings nobody any more. -/
lemma apply_done (h : Submitters sys) (hcall : sys.calls.get? a = some ⟨op, .submission p⟩)
    (hdone : ∀ q, after? op p o = some q → q.thread? = none)
    (hwaits : ∀ t w k, p ≠ .awaitAdmission t w k)
    (hunstarted : ∀ t, sys.state.started? t = some false → p.thread? ≠ some t →
      (o.state sys.state).started? t = some false)
    (hqueue : (o.state sys.state).admissionQueue = sys.state.admissionQueue)
    (hadmitted : ∀ t, (o.state sys.state).isAdmitted t = sys.state.isAdmitted t) :
    Submitters (sys.apply a op o) := by
  refine h.update (submission?_of_call hcall) (System.submission?_apply hcall)
    (by simpa using hunstarted) (fun q t hq ht => ?_) fun t ht => ?_
  · have hnone := hdone q hq
    rw [ht] at hnone
    cases hnone
  · rw [System.state_apply, hqueue] at ht
    rw [System.state_apply, hadmitted]
    exact ⟨(h.waiting t ht).1, .inl ⟨ht, hwaits t⟩⟩

/-- To be listed is no admission. -/
lemma isAdmitted_list {s : State} {u : ThreadId} (w : Work) :
    (s.list t w).isAdmitted u = s.isAdmitted u := by
  rw [isAdmitted, record?_list, isAdmitted]
  cases s.record? u <;> rfl

/-- The agreement is kept by a submitter that lists its thread. -/
lemma apply_list (h : Submitters sys) {w : Work} {k : AfterListing}
    (hcall : sys.calls.get? a = some ⟨op, .submission (.list t w k)⟩)
    (hstate : o.state sys.state = sys.state.list t w)
    (hdone : ∀ q, after? op (.list t w k) o = some q → q.thread? = none) :
    Submitters (sys.apply a op o) := by
  refine h.apply_done hcall hdone (by simp) (fun u hu hne => ?_) ?_ fun u => ?_
  · have hut : u ≠ t := fun he => hne (congrArg some he.symm)
    rw [hstate, Roster.started?_list, if_neg hut, hu]
  · rw [hstate]
    rfl
  · rw [hstate]
    exact isAdmitted_list w

/-- The agreement is kept by a submitter that leaves the state alone and brings nobody. -/
lemma apply_stay (h : Submitters sys) (hcall : sys.calls.get? a = some ⟨op, .submission p⟩)
    (hstate : o.state sys.state = sys.state)
    (hdone : ∀ q, after? op p o = some q → q.thread? = none)
    (hwaits : ∀ t w k, p ≠ .awaitAdmission t w k) : Submitters (sys.apply a op o) :=
  h.apply_done hcall hdone hwaits (fun t ht _ => by rwa [hstate]) (by rw [hstate])
    fun t => by rw [hstate]

/-- The agreement is kept by a submitter that takes a number, whether its thread waits or not. -/
lemma apply_enrol (h : Submitters sys) (hroster : sys.state.Roster) {w : Work} {k : AfterListing}
    {q : Submission} (hcall : sys.calls.get? a = some ⟨op, .submission (.enrol w k)⟩)
    (hafter : after? op (.enrol w k) o = some q) (hq : q.thread? = some sys.state.nextThread)
    (hrecord : ∀ t, (o.state sys.state).record? t = sys.state.enrol.record? t)
    (hqueue : ∀ t ∈ (o.state sys.state).admissionQueue, t ∈ sys.state.admissionQueue ∨
      q = .awaitAdmission t w k ∧ t = sys.state.nextThread) : Submitters (sys.apply a op o) := by
  have hstarted : ∀ t, (o.state sys.state).started? t =
      if t = sys.state.nextThread then some false else sys.state.started? t := by
    intro t
    rw [started?, hrecord]
    exact Roster.started?_enrol
  have hadmitted : ∀ t, t = sys.state.nextThread ∨ sys.state.isAdmitted t = false →
      (o.state sys.state).isAdmitted t = false := by
    intro t ht
    rw [isAdmitted, hrecord, record?_enrol]
    split
    · rfl
    · next hne => exact ht.resolve_left hne
  refine h.update (submission?_of_call hcall) (System.submission?_apply hcall)
    (fun t ht _ => ?_) (fun q' t hq' ht => ?_) fun t ht => ?_
  · rw [System.state_apply, hstarted]
    split
    · rfl
    · exact ht
  · obtain rfl : q = q' := Option.some_inj.mp (hafter.symm.trans hq')
    obtain rfl : sys.state.nextThread = t := Option.some_inj.mp (hq.symm.trans ht)
    rw [System.state_apply, hstarted, if_pos rfl]
    exact ⟨rfl, .inl hroster.nextThread_unknown⟩
  · rw [System.state_apply] at ht ⊢
    rcases hqueue t ht with ht | ⟨rfl, rfl⟩
    · exact ⟨hadmitted t (.inr (h.waiting t ht).1), .inl ⟨ht, by simp⟩⟩
    · exact ⟨hadmitted _ (.inl rfl), .inr ⟨w, k, hafter⟩⟩

/-- What a submitter does keeps the agreement. -/
theorem intake (h : Submitters sys) (hroster : sys.state.Roster)
    (hcall : sys.calls.get? a = some ⟨op, .submission p⟩)
    (ho : Intake sys.config sys.state p o) : Submitters (sys.apply a op o) := by
  cases ho with
  | blocked w k hfull =>
    refine h.apply_enrol hroster hcall rfl rfl (fun _ => rfl) fun t ht => ?_
    rcases List.mem_append.mp ht with ht | ht
    · exact .inl ht
    · obtain rfl := List.mem_singleton.mp ht
      exact .inr ⟨rfl, rfl⟩
  | passed w k hfull =>
    exact h.apply_enrol hroster hcall rfl rfl (fun _ => rfl) fun t ht => .inl ht
  | sleepForAdmission t w k r hr hadmitted =>
    have hstays : ∀ b, (sys.apply a op .sleep).submission? b = sys.submission? b := fun b => rfl
    exact h.keep (.refl _) (fun b p t hb _ => hstays b ▸ hb) fun b t w k hb => (hstays b).trans hb
  | admitted t w k r hr hadm =>
    have ha := submission?_of_call hcall
    refine h.update ha (System.submission?_apply hcall) (fun t ht _ => ht) (fun q u hq hu => ?_)
      fun u hu => ?_
    · cases hq
      cases hu
      exact ⟨h.unstarted a _ t ha rfl, .inr rfl⟩
    · refine ⟨(h.waiting u hu).1, .inl ⟨hu, ?_⟩⟩
      rintro w' k' he
      cases he
      -- Whoever is in the queue was not let through.
      have hwaits := (h.waiting t hu).1
      simp [isAdmitted, hr, hadm] at hwaits
  | listed t w hnames => exact h.apply_list hcall rfl (by rintro q ⟨⟩)
  | listedToCount t w hnames => exact h.apply_list hcall rfl (by rintro q ⟨⟩; rfl)
  | listedWithMore t w n first hnames => exact h.apply_list hcall rfl (by rintro q ⟨⟩; rfl)
  | listedLast t w first hnames => exact h.apply_list hcall rfl (by rintro q ⟨⟩)
  | unnamed t w k hnames => exact h.apply_stay hcall rfl (by rintro q ⟨⟩) (by simp)
  | lacking first n hn => exact h.apply_stay hcall rfl (by rintro q ⟨⟩; rfl) (by simp)
  | sufficient first hn => exact h.apply_stay hcall rfl (by rintro q ⟨⟩) (by simp)

end Intake

end Submitters

end RoundScheduler
