import RoundScheduler.Proofs.Invariant
import RoundScheduler.Proofs.State.Turnover

/-!
# No fault can be reached

Whoever starts a round removes the records of retired threads, while others sleep with conditions
that look up their own records, and while the thread that retired last may itself be the one that
starts the round. All the same no look-up fails: whoever looks something up finds it. So no
operation ends in a fault, whatever may be called at any moment, and the reports are always to be
had.
-/

namespace RoundScheduler

open State

/-! ### Faults -/

/-- The fault that a reply tells of, if it does. -/
def Reply.fault? : Reply → Option Fault
  | panicked (.fault f) => some f
  | _ => none

/-- The fault in which an outcome ends, if it does. -/
def Outcome.fault? : Outcome → Option Fault
  | reply _ r => r.fault?
  | _ => none

section Outcomes

variable {eligible : ThreadId → Bool} {c : Config} {s : State} {t : ThreadId} {a : Agent}
  {o : Outcome}

/-- None of the things that can happen at a place of a thread is a fault. -/
lemma Stretch.fault?_eq_none {ph : Phase} (ho : Stretch eligible s t ph o) : o.fault? = none := by
  cases ho <;> rfl

/-- None of the ways in which an operation can begin is a fault. -/
lemma Opening.fault?_eq_none {op : Operation} (ho : Opening s a op o) : o.fault? = none := by
  cases ho <;> rfl

/-- None of the things that can happen at a place of a submitter is a fault. -/
lemma Intake.fault?_eq_none {p : Submission} (ho : Intake c s p o) : o.fault? = none := by
  cases ho <;> rfl

end Outcomes

/-! ### Reports -/

namespace State

variable {s : State}

/-- The counters can be told, and those of the threads fit. -/
lemma Sound.summary_eq (h : Sound s) (htally : Tallied s) :
    ∃ summary, s.summary = .ok summary ∧
      summary.inFlight? = .ok (s.threadList.countP fun t => !s.hasTerminated t) := by
  have hpositive : s.staged.primaries ≠ 0 := Nat.pos_iff_ne_zero.mp h.seating.staged.1
  refine ⟨_, if_neg hpositive, ?_⟩
  have hle : s.terminated ≤ s.scheduled := Nat.le.intro htally
  have hdifference : s.scheduled - s.terminated =
      s.threadList.countP fun t => !s.hasTerminated t := Nat.sub_eq_of_eq_add' htally.symm
  rw [Summary.inFlight?, Word.sub?, if_pos hle, hdifference]

/-- Threads with records have lines in the full report. -/
lemma exists_recordLines {ts : List ThreadId} (h : ∀ t ∈ ts, (s.record? t).isSome) :
    ∃ lines, ts.mapM s.recordLine = .ok lines := by
  induction ts with
  | nil => exact ⟨[], rfl⟩
  | cons t ts ih =>
    obtain ⟨r, hr⟩ := Option.isSome_iff_exists.mp (h t List.mem_cons_self)
    obtain ⟨lines, hlines⟩ := ih fun u hu => h u (List.mem_cons_of_mem t hu)
    have hline : s.recordLine t = .ok ("  " ++ r.text t ++ "\n") := by rw [recordLine, hr]
    refine ⟨("  " ++ r.text t ++ "\n") :: lines, ?_⟩
    rw [List.mapM_cons, hline, hlines]
    rfl

/-- The full report can be told. -/
lemma Sound.exists_fullReport (h : Sound s) (htally : Tallied s) :
    ∃ report, s.fullReport = .ok report := by
  obtain ⟨summary, hsummary, -⟩ := h.summary_eq htally
  obtain ⟨lines, hlines⟩ := exists_recordLines fun t ht => h.roster.isSome_of_mem_list ht
  rw [fullReport, hsummary, hlines]
  exact ⟨_, rfl⟩

end State

/-! ### What is looked up is there -/

/-- Whatever an operation may look up is there. -/
structure Complete (sys : System) : Prop where
  /-- Listed threads have records. -/
  listed : ∀ t ∈ sys.state.threadList, (sys.state.record? t).isSome
  /-- So have threads that wait for admission. -/
  waiting : ∀ t ∈ sys.state.admissionQueue, (sys.state.record? t).isSome
  /-- So have threads that submitters bring. -/
  brought : ∀ a p t, sys.submission? a = some p → p.thread? = some t →
    (sys.state.record? t).isSome
  /-- So have primaries. -/
  primaries : ∀ t ∈ sys.state.primaries, (sys.state.record? t).isSome
  /-- So have threads in the queue of a lock. -/
  queued : ∀ l k, sys.state.lock? l = some k → ∀ t ∈ k.queue, (sys.state.record? t).isSome
  /-- So have threads inside an operation, unless they have retired. -/
  callers : ∀ t ph, sys.phase? (.unit t) = some ph → ph.leaving = false →
    (sys.state.record? t).isSome
  /-- A thread that is flagged as a primary has a slot. -/
  seated : ∀ t r, sys.state.record? t = some r → r.primary = true → (sys.state.slotOf? t).isSome
  /-- The locks that operations use exist. -/
  locks : ∀ a call, sys.calls.get? a = some call → ∀ l ∈ call.operation.locks,
    (sys.state.lock? l).isSome
  /-- Whoever fills a round has not gone beyond the list. -/
  filling : ∀ a index plan, sys.fill? a = some (index, plan) →
    index ≤ sys.state.threadList.length
  /-- The steps of the staged configuration are divided among somebody. -/
  divisor : 0 < sys.state.staged.primaries
  /-- No more threads retired than were listed. -/
  counted : sys.state.terminated ≤ sys.state.scheduled

variable {c : Config} {sys sys' : System}

/-- In a system with the invariant nothing is missing. -/
lemma Invariant.complete (h : Invariant sys) (htally : Tallied sys.state) : Complete sys where
  listed _ ht := h.sound.roster.isSome_of_mem_list ht
  waiting t ht := by
    rw [isSome_record?_iff, h.sound.roster.waiting t ht]
    rfl
  brought _ _ _ hp ht := h.isSome_of_submission hp ht
  primaries _ ht := h.sound.seating.isSome_of_mem ht
  queued l k hk t ht := by
    obtain ⟨r, hr, -⟩ := linkOf?_eq_some_iff.mp ((h.sound.queues.linked t l).mpr ⟨k, hk, ht⟩)
    simp [hr]
  callers t ph hph hleaving := by
    obtain ⟨-, -, -, halive, -⟩ := (h.call_of_phase hph ▸ h.placed (.unit t)).of_thread
    obtain ⟨r, hr, -⟩ := exists_record_of_isAlive (halive hleaving)
    simp [hr]
  seated t r hr hprimary := by
    obtain ⟨slot, hslot⟩ := Seating.exists_slot ((h.sound.seating.primary_of_mem hr).mp hprimary)
    simp [hslot]
  locks a _ hcall := (hcall ▸ h.placed a).locks
  filling a index plan ha := (h.fillers.filling a index plan ha).1.index_le
  divisor := h.sound.seating.staged.1
  counted := Nat.le.intro htally

/-- What comes next for whoever is inside an operation is no fault. -/
lemma Invariant.outcome_fault?_eq_none (h : Invariant sys) {a : Agent} {call : Call}
    (hcall : sys.calls.get? a = some call) (eligible : ThreadId → Bool) :
    (sys.outcome eligible call).fault? = none := by
  obtain ⟨op, point⟩ := call
  cases point with
  | thread t ph => exact (h.stretch_of_call hcall eligible).2.2.fault?_eq_none
  | submission p => exact (h.intake_of_call hcall).fault?_eq_none

/-! ### Runs -/

/-- No operation has ended in a fault, and the threads are counted. -/
structure Sane (sys : System) : Prop where
  returns : ∀ ret ∈ sys.returns, ret.reply.fault? = none
  tallied : Tallied sys.state

namespace Sane

/-- An outcome that is no fault adds no fault to the returns. -/
lemma returns_apply (h : Sane sys) {a : Agent} {op : Operation} {o : Outcome}
    (ho : o.fault? = none) : ∀ ret ∈ (sys.apply a op o).returns, ret.reply.fault? = none := by
  intro ret hret
  rw [System.returns_apply] at hret
  rcases List.mem_append.mp hret with hnew | hold
  · cases o with
    | reply s r =>
      cases List.mem_singleton.mp hnew
      exact ho
    | _ => cases hnew
  · exact h.returns ret hold

/-- No move ends an operation in a fault. -/
theorem step (h : Sane sys) (hinv : Invariant sys) (hs : System.Step sys sys') : Sane sys' := by
  refine ⟨?_, ?_⟩
  · obtain ⟨eligible, m, hm⟩ := hs
    cases hinv.transition hm with
    | call a op o hinside hidle halive hlocks ho => exact h.returns_apply ho.fault?_eq_none
    | stretch t op ph o hinside hcall hop ho => exact h.returns_apply ho.fault?_eq_none
    | intake a op p o hinside hcall ho => exact h.returns_apply ho.fault?_eq_none
    | enter | newLock | dropLock => exact h.returns
  · rcases hinv.effect hs with ⟨w, hchange⟩ | harrival
    · exact hchange.tallied hinv.sound h.tallied
    · exact harrival.tallied hinv.sound h.tallied

theorem of_reachable (h : System.Reachable c sys) : Sane sys := by
  induction h using System.Reachable.induction with
  | initial sys hstart =>
    obtain ⟨rounds, -, rfl⟩ := Invariant.exists_rounds_of_initial hstart
    exact ⟨nofun, rfl⟩
  | step sys sys' hreach hs ih => exact ih.step (Invariant.of_reachable hreach) hs

end Sane

/-- At every moment whatever may be looked up is there; no operation has ended in a fault, none that
is under way goes on to one, and none that could be called begins with one; and both reports can be
told, with as many threads in flight as are listed and have not retired. -/
theorem no_fault_reachable {c : Config} {sys : System} (h : System.Reachable c sys) :
    Complete sys ∧
    (∀ ret ∈ sys.returns, ret.reply.fault? = none) ∧
    (∀ eligible a call, sys.calls.get? a = some call →
      (sys.outcome eligible call).fault? = none) ∧
    (∀ a (op : Operation) o, (∀ l ∈ op.locks, (sys.state.lock? l).isSome) →
      op.start? sys.state a = some o → o.fault? = none) ∧
    (∃ summary, sys.state.summary = .ok summary ∧ summary.inFlight? =
      .ok (sys.state.threadList.countP fun t => !sys.state.hasTerminated t)) ∧
    ∃ report, sys.state.fullReport = .ok report := by
  have hinv := Invariant.of_reachable h
  have hsane := Sane.of_reachable h
  exact ⟨hinv.complete hsane.tallied, hsane.returns,
    fun eligible _ _ hcall => hinv.outcome_fault?_eq_none hcall eligible,
    fun _ _ _ hlocks ho => (Operation.opening_of_start? hinv.sound hlocks ho).fault?_eq_none,
    hinv.sound.summary_eq hsane.tallied, hinv.sound.exists_fullReport hsane.tallied⟩

/-! ### A thread that removes its own record -/

/-- The moves by which the only thread of a scheduler retires, which closes the round, and goes on
to fill the next one. -/
def lastRetirement : List Move :=
  [.call (.client 0) (.submit .noop), .advance, .advance,
    .call (.unit ⟨0⟩) .retire, .advance, .advance, .advance, .advance, .advance, .advance]

/-- The thread sleeps without a record until another one is listed. -/
theorem no_fault_reachable_lastRetirement :
    ∃ sys call, System.run? {} (fun _ => true) lastRetirement = some sys ∧
      sys.calls.get? (.unit ⟨0⟩) = some call ∧ sys.state.record? ⟨0⟩ = none ∧
      sys.state.round = 2 ∧ (∀ eligible, (sys.outcome eligible call).fault? = none) ∧
      ∃ summary, sys.state.summary = .ok summary ∧ summary.inFlight? = .ok 0 := by
  obtain ⟨sys, call, hrun, hcall, hrecord, hround, hlist⟩ : ∃ sys call,
      System.run? {} (fun _ => true) lastRetirement = some sys ∧
      sys.calls.get? (.unit ⟨0⟩) = some call ∧ sys.state.record? ⟨0⟩ = none ∧
      sys.state.round = 2 ∧ sys.state.threadList = [] := ⟨_, _, rfl, rfl, rfl, rfl, rfl⟩
  obtain ⟨-, -, hunderWay, -, hsummary, -⟩ :=
    no_fault_reachable (System.reachable_of_run? hrun)
  refine ⟨sys, call, hrun, hcall, hrecord, hround, fun eligible => hunderWay eligible _ _ hcall, ?_⟩
  simpa [hlist] using hsummary

end RoundScheduler
