import Mathlib.Algebra.BigOperators.Group.Finset.Basic
import Mathlib.Algebra.Order.BigOperators.Group.Finset
import RoundScheduler.Proofs.Determinism.Runs
import RoundScheduler.Proofs.LifeCycle
import RoundScheduler.Proofs.Livelock.Ownership

/-!
# Runs under a discipline

Units of an agenda may be submitted by any number of clients, in any order and at any time: a
function says who submits which unit. A step under the discipline is a move that follows the
agenda in this wider sense and is careful about locks, and that does not lower the number of
primaries to come. `Engaged` says how the places of threads and clients, and the answers they got,
agree with the agenda in every such run, and `Undertaking` lists what a step can be.
-/

namespace RoundScheduler

open State

/-! ### The discipline -/

namespace Agenda

/-- Whether the submission of a unit was answered. -/
def answered (i : Nat) (returns : List Return) : Bool :=
  returns.any fun r => r.operation = .submit (.scripted i)

/-- Whether a move follows the agenda if the units are submitted, each of them once, by the clients
that a function tells; locks are neither created nor dropped on the way. -/
def Invites (w : Agenda) (submitter : Nat → Nat) (sys : System) : Move → Prop
  | .call (.unit t) op => op = (w.todo t sys.returns).operation
  | .call (.client n) op => ∃ i < w.units.length, submitter i = n ∧
      op = .submit (.scripted i) ∧ answered i sys.returns = false
  | .advance | .enter _ => True
  | .newLock | .dropLock _ => False

instance (w : Agenda) (submitter : Nat → Nat) (sys : System) :
    DecidablePred (w.Invites submitter sys)
  | .call (.unit t) op => inferInstanceAs (Decidable (op = (w.todo t sys.returns).operation))
  | .call (.client n) op => inferInstanceAs (Decidable (∃ i < w.units.length, submitter i = n ∧
      op = .submit (.scripted i) ∧ answered i sys.returns = false))
  | .advance | .enter _ => inferInstanceAs (Decidable True)
  | .newLock | .dropLock _ => inferInstanceAs (Decidable False)

/-- One system comes from another by a move under the discipline. -/
def Disciplined (w : Agenda) (submitter : Nat → Nat) (sys sys' : System) : Prop :=
  ∃ m, w.Invites submitter sys m ∧ sys.Careful m ∧ sys.move? w.eligible m = some sys' ∧
    sys.state.staged.primaries ≤ sys'.state.staged.primaries

/-- The system after some moves, if they are possible under the discipline. -/
def pursue? (w : Agenda) (submitter : Nat → Nat) (sys : System) : List Move → Option System
  | [] => some sys
  | m :: ms =>
    if w.Invites submitter sys m ∧ m.claimant?.all fun t => (sys.state.locksOf t).isEmpty then
      (sys.move? w.eligible m).bind fun next =>
        if sys.state.staged.primaries ≤ next.state.staged.primaries then
          w.pursue? submitter next ms
        else none
    else none

/-- Moves that are possible under the discipline make a run. -/
lemma exists_run_of_pursue? {w : Agenda} {submitter : Nat → Nat} {sys last : System}
    {ms : List Move} (h : w.pursue? submitter sys ms = some last) :
    ∃ run : Nat → System, run 0 = sys ∧ run ms.length = last ∧
      ∀ i < ms.length, w.Disciplined submitter (run i) (run (i + 1)) := by
  induction ms generalizing sys with
  | nil => exact ⟨fun _ => sys, rfl, Option.some_inj.mp h, fun i hi => absurd hi (by simp)⟩
  | cons m ms ih =>
    rw [pursue?] at h
    obtain ⟨⟨hinvites, hclaims⟩, h⟩ := Option.ite_none_right_eq_some.mp h
    obtain ⟨next, hm, h⟩ := Option.bind_eq_some_iff.mp h
    obtain ⟨hstaged, h⟩ := Option.ite_none_right_eq_some.mp h
    obtain ⟨run, rfl, hlast, hrun⟩ := ih h
    have hcareful : sys.Careful m := fun t ht => by
      rw [ht] at hclaims
      exact ownsNothing_of_locksOf (by simpa using hclaims)
    refine ⟨fun i => i.casesOn sys run, rfl, hlast, fun i hi => ?_⟩
    cases i with
    | zero => exact ⟨m, hinvites, hcareful, hm, hstaged⟩
    | succ i => exact hrun i (Nat.lt_of_succ_lt_succ hi)

end Agenda

/-! ### The stages of a submission -/

namespace Submission

/-- How far a submission is from its answer, at the place of its submitter. -/
def stage : Submission → Nat
  | enrol .. => 3
  | awaitAdmission .. => 2
  | list .. => 1
  | count _ => 0

/-- What the submitter does after its thread was listed. -/
def after : Submission → AfterListing
  | enrol _ k | awaitAdmission _ _ k | list _ _ k => k
  | count _ => .count

end Submission

namespace Agenda

variable {w : Agenda} {submitter : Nat → Nat} {sys sys' : System} {t u : ThreadId} {op : Operation}
  {o : Outcome} {i j : Nat}

/-- How far a unit whose submission was not answered is from that, by the call of its submitter. -/
def callStage (i : Nat) : Option Call → Nat
  | some ⟨op, .submission p⟩ => if op = .submit (.scripted i) then p.stage else 4
  | _ => 4

/-- How far a unit is from having been submitted. -/
def stage (submitter : Nat → Nat) (sys : System) (i : Nat) : Nat :=
  if answered i sys.returns then 0 else callStage i (sys.calls.get? (.client (submitter i)))

/-- Whether the thread of a unit is still to get its number. -/
def unnumbered (submitter : Nat → Nat) (sys : System) (i : Nat) : Nat :=
  if 3 ≤ stage submitter sys i then 1 else 0

/-- The places of threads and clients agree with the agenda. -/
structure Engaged (w : Agenda) (submitter : Nat → Nat) (sys : System) : Prop where
  /-- Threads are in the operation that is next in their routine. -/
  unit : ∀ t call, sys.calls.get? (.unit t) = some call →
    ∃ ph, call = ⟨(w.todo t sys.returns).operation, .thread t ph⟩
  /-- Threads that are in an operation have been listed. -/
  seen : ∀ t, (sys.calls.get? (.unit t)).isSome →
    t.raw < sys.state.nextThread.raw ∧ sys.state.started? t ≠ some false
  /-- Clients submit units that are theirs to submit. -/
  client : ∀ n call, sys.calls.get? (.client n) = some call →
    ∃ i p, i < w.units.length ∧ submitter i = n ∧ answered i sys.returns = false ∧
      call = ⟨.submit (.scripted i), .submission p⟩ ∧ p.after = .answer
  /-- There are no more threads than units. -/
  room : sys.state.nextThread.raw + ∑ i ∈ Finset.range w.units.length, unnumbered submitter sys i ≤
    w.units.length

/-- What a step under the discipline can be. -/
inductive Undertaking (w : Agenda) (submitter : Nat → Nat) (sys : System) : System → Prop
  /-- A thread calls the operation that is next in its routine. -/
  | call (t : ThreadId) (o : Outcome) (hinside : sys.inside = none)
    (hidle : sys.calls.get? (.unit t) = none) (halive : sys.state.isAlive t = true)
    (ho : Opening sys.state (.unit t) (w.todo t sys.returns).operation o) :
    Undertaking w submitter sys (sys.apply (.unit t) (w.todo t sys.returns).operation o)
  /-- A thread goes one place further. -/
  | stretch (t : ThreadId) (ph : Phase) (o : Outcome) (hinside : sys.inside = some (.unit t))
    (hcall : sys.calls.get? (.unit t) = some ⟨ph.operation, .thread t ph⟩)
    (hop : (w.todo t sys.returns).operation = ph.operation)
    (ho : Stretch w.eligible sys.state t ph o) :
    Undertaking w submitter sys (sys.apply (.unit t) ph.operation o)
  /-- A client begins to submit a unit. -/
  | submit (i : Nat) (hinside : sys.inside = none) (hi : i < w.units.length)
    (hidle : sys.calls.get? (.client (submitter i)) = none)
    (hanswered : answered i sys.returns = false) :
    Undertaking w submitter sys (sys.apply (.client (submitter i)) (.submit (.scripted i))
      (.goto sys.state (.submission (.enrol (.scripted i) .answer))))
  /-- A client goes one place further. -/
  | intake (i : Nat) (p : Submission) (o : Outcome)
    (hinside : sys.inside = some (.client (submitter i))) (hi : i < w.units.length)
    (hcall : sys.calls.get? (.client (submitter i)) = some ⟨.submit (.scripted i), .submission p⟩)
    (hanswered : answered i sys.returns = false) (hafter : p.after = .answer)
    (ho : Intake sys.config sys.state p o) :
    Undertaking w submitter sys (sys.apply (.client (submitter i)) (.submit (.scripted i)) o)
  /-- Somebody who is in an operation enters the critical section. -/
  | enter (a : Agent) (hinside : sys.inside = none) (hcall : (sys.calls.get? a).isSome) :
    Undertaking w submitter sys { sys with inside := some a }

/-- No unit removes a request from a queue. -/
lemma operation_ne_unqueue {r : Routine} {l : LockId} : r.operation ≠ .unqueue l t := by
  intro hop
  rcases r.operation_cases with ⟨p, hp⟩ | ⟨m, hm⟩ | hretire
  · cases p <;> cases hp.symm.trans hop
  · cases hm.symm.trans hop
  · cases hretire.symm.trans hop

namespace Engaged

/-- Threads have the numbers of units. -/
lemma raw_lt (h : w.Engaged submitter sys) (hinv : Invariant sys)
    (ht : (sys.state.record? t).isSome) : t.raw < w.units.length := by
  have hfresh := hinv.sound.roster.fresh t (isSome_record?_iff.mp ht)
  have hroom := h.room
  omega

/-- Whoever is in an operation is a thread of a unit. -/
lemma raw_lt_of_call {call : Call} (h : w.Engaged submitter sys)
    (hcall : sys.calls.get? (.unit t) = some call) : t.raw < w.units.length := by
  have hseen := (h.seen t (by simp [hcall])).1
  have hroom := h.room
  omega

/-- Every step under the discipline is one of the listed ones. -/
theorem undertaking (h : w.Engaged submitter sys) (hinv : Invariant sys)
    (hstep : w.Disciplined submitter sys sys') : w.Undertaking submitter sys sys' := by
  obtain ⟨m, hinvites, -, hm, -⟩ := hstep
  cases hinv.transition hm with
  | call a op o hinside hidle halive hlocks ho =>
    cases a with
    | unit t =>
      obtain rfl : op = _ := hinvites
      exact .call t o hinside hidle halive ho
    | client n =>
      obtain ⟨i, hi, rfl, rfl, hanswered⟩ := hinvites
      cases ho
      exact .submit i hinside hi hidle hanswered
  | stretch t op ph o hinside hcall hop ho =>
    subst hop
    obtain ⟨ph', hcall'⟩ := h.unit t _ hcall
    have hop : ph.operation = (w.todo t sys.returns).operation := congrArg Call.operation hcall'
    exact .stretch t ph o hinside hcall hop.symm ho
  | intake a op p o hinside hcall ho =>
    cases a with
    | unit t =>
      obtain ⟨ph, hcall'⟩ := h.unit t _ hcall
      cases congrArg Call.point hcall'
    | client n =>
      obtain ⟨i, p', hi, rfl, hanswered, hcall', hafter⟩ := h.client n _ hcall
      cases hcall'
      exact .intake i p o hinside hi hcall hanswered hafter ho
  | enter a call hinside hcall => exact .enter a hinside (by simp [hcall])
  | newLock => cases hinvites
  | dropLock => cases hinvites

end Engaged

/-! ### What the actions of a thread leave alone -/

/-- The return of another operation answers no submission of the unit. -/
lemma answered_append {a : Agent} (hop : op ≠ .submit (.scripted i)) (returns : List Return) :
    answered i (o.returns a op ++ returns) = answered i returns := by
  cases o <;> simp [answered, Outcome.returns, hop]

/-- How far a unit is depends on its answer and on the call of its submitter. -/
lemma stage_congr (hreturns : answered i sys'.returns = answered i sys.returns)
    (hcall : sys'.calls.get? (.client (submitter i)) = sys.calls.get? (.client (submitter i))) :
    stage submitter sys' i = stage submitter sys i := by
  rw [stage, hreturns, hcall, stage]

section Units

variable (hsubmits : op.submits = false)

include hsubmits

/-- What a thread does answers no submission. -/
lemma answered_apply_unit : answered i (sys.apply (.unit t) op o).returns =
    answered i sys.returns := by
  rw [System.returns_apply]
  exact answered_append (fun heq => by cases heq ▸ hsubmits) _

/-- What a thread does brings no unit closer to having been submitted. -/
lemma stage_apply_unit :
    stage submitter (sys.apply (.unit t) op o) i = stage submitter sys i :=
  stage_congr (answered_apply_unit hsubmits) (by simp [System.get?_calls_apply])

end Units

/-- What a thread does leaves what the others have to do. -/
lemma todo_apply_unit (hut : u ≠ t) :
    w.todo u (sys.apply (.unit t) op o).returns = w.todo u sys.returns := by
  rw [System.returns_apply]
  exact Shadow.todo_append_of_unit (Ne.symm hut) _

/-! ### What a submitter leaves alone -/

/-- The submission of one unit brings no other one closer. -/
lemma callStage_of_ne {call? : Option Call} (hji : j ≠ i)
    (h : ∀ call, call? = some call → call.operation = .submit (.scripted i)) :
    callStage j call? = 4 := by
  cases call? with
  | none => rfl
  | some call =>
    obtain ⟨op, point⟩ := call
    obtain rfl : op = _ := h _ rfl
    cases point with
    | thread u ph => rfl
    | submission p => simp [callStage, Ne.symm hji]

/-- A unit whose submitter is outside is not submitted yet. -/
lemma stage_of_idle (hanswered : answered i sys.returns = false)
    (hidle : sys.calls.get? (.client (submitter i)) = none) : stage submitter sys i = 4 := by
  simp [stage, hanswered, hidle, callStage]

/-- A unit is as far as the submission of its submitter. -/
lemma stage_of_call {p : Submission} (hanswered : answered i sys.returns = false)
    (hcall : sys.calls.get? (.client (submitter i)) = some ⟨.submit (.scripted i), .submission p⟩) :
    stage submitter sys i = p.stage := by
  simp [stage, hanswered, hcall, callStage]

/-- A submitter that goes on takes its unit along. -/
lemma stage_goto {s : State} {p : Submission} (hanswered : answered i sys.returns = false) :
    stage submitter (sys.apply (.client (submitter i)) (.submit (.scripted i))
      (.goto s (.submission p))) i = p.stage :=
  stage_of_call hanswered (by simp [System.get?_calls_apply, Outcome.call?])

section Submitter

variable (hbefore : ∀ call, sys.calls.get? (.client (submitter i)) = some call →
  call.operation = .submit (.scripted i))

include hbefore

/-- The other units are where they were. -/
lemma stage_apply_client (hji : j ≠ i) :
    stage submitter (sys.apply (.client (submitter i)) (.submit (.scripted i)) o) j =
      stage submitter sys j := by
  have hreturns : answered j (sys.apply (.client (submitter i)) (.submit (.scripted i)) o).returns =
      answered j sys.returns := by
    rw [System.returns_apply]
    exact answered_append (by simpa using Ne.symm hji) _
  by_cases hsame : submitter j = submitter i
  · rw [stage, hreturns, hsame, System.get?_calls_apply, if_pos rfl, stage, hsame,
      callStage_of_ne hji hbefore, callStage_of_ne hji]
    intro call hcall
    cases o with
    | sleep => exact hbefore call hcall
    | goto s p | pause s p =>
      cases hcall
      rfl
    | reply s r => cases hcall
  · exact stage_congr hreturns (by simp [System.get?_calls_apply, hsame])

end Submitter

/-! ### The invariant -/

/-- A sum over units or threads changes by no more than the term that is singled out. -/
lemma sum_add_le {n a b : Nat} {f g : Nat → Nat} (hi : i < n) (hother : ∀ j, j ≠ i → f j ≤ g j)
    (hown : f i + a ≤ g i + b) :
    ∑ j ∈ Finset.range n, f j + a ≤ ∑ j ∈ Finset.range n, g j + b := by
  have hmem : i ∈ Finset.range n := Finset.mem_range.mpr hi
  have hrest : ∑ j ∈ (Finset.range n).erase i, f j ≤ ∑ j ∈ (Finset.range n).erase i, g j :=
    Finset.sum_le_sum fun j hj => hother j (Finset.ne_of_mem_erase hj)
  rw [← Finset.add_sum_erase _ f hmem, ← Finset.add_sum_erase _ g hmem]
  omega

namespace Engaged

/-- What a thread does keeps everybody engaged. -/
lemma apply_unit {v : Option ThreadId} (h : w.Engaged submitter sys) (hs : sys.state.Sound)
    (hop : op = (w.todo t sys.returns).operation) (hc : Change sys.state v (o.state sys.state))
    (hseen : t.raw < sys.state.nextThread.raw ∧ sys.state.started? t ≠ some false)
    (hown : ∀ call, o.call? (sys.calls.get? (.unit t)) op = some call →
      o.returns (.unit t) op = [] ∧ ∃ ph, call = ⟨op, .thread t ph⟩) :
    w.Engaged submitter (sys.apply (.unit t) op o) := by
  have hsubmits : op.submits = false := hop ▸ Routine.submits_operation _
  refine ⟨fun u call hcall => ?_, fun u hu => ?_, fun n call hcall => ?_, ?_⟩
  · rw [System.get?_calls_apply] at hcall
    split at hcall
    · next hut =>
      cases hut
      obtain ⟨hreturns, ph, rfl⟩ := hown call hcall
      rw [System.returns_apply, hreturns, List.nil_append, ← hop]
      exact ⟨ph, rfl⟩
    · next hut =>
      rw [todo_apply_unit (by simpa using hut)]
      exact h.unit u call hcall
  · have hbefore : u.raw < sys.state.nextThread.raw ∧ sys.state.started? u ≠ some false := by
      by_cases hut : u = t
      · exact hut ▸ hseen
      · rw [System.get?_calls_apply, if_neg (by simpa using hut)] at hu
        exact h.seen u hu
    rw [System.state_apply, hc.nextThread_eq]
    exact ⟨hbefore.1, fun hu => hbefore.2 (hc.started?_of_some hs hu)⟩
  · rw [System.get?_calls_apply, if_neg (by simp)] at hcall
    obtain ⟨i, p, hi, hn, hanswered, hrest⟩ := h.client n call hcall
    exact ⟨i, p, hi, hn, (answered_apply_unit hsubmits).trans hanswered, hrest⟩
  · have hsame : ∀ i, unnumbered submitter (sys.apply (.unit t) op o) i =
        unnumbered submitter sys i := fun i => by
      rw [unnumbered, stage_apply_unit hsubmits, unnumbered]
    simp only [hsame, System.state_apply, hc.nextThread_eq]
    exact h.room

/-- What a submitter does keeps everybody engaged, if a number that it uses up was kept for its
unit. -/
lemma apply_client (h : w.Engaged submitter sys) (hi : i < w.units.length)
    (hanswered : answered i sys.returns = false)
    (hbefore : ∀ call, sys.calls.get? (.client (submitter i)) = some call →
      call.operation = .submit (.scripted i))
    (hseen : ∀ t, t.raw < sys.state.nextThread.raw → sys.state.started? t ≠ some false →
      t.raw < (o.state sys.state).nextThread.raw ∧ (o.state sys.state).started? t ≠ some false)
    (hunit : ∀ t, sys.state.started? t ≠ some false →
      ∀ r ∈ o.returns (.client (submitter i)) (.submit (.scripted i)), r.unit? t = none)
    (hown : ∀ call, o.call? (sys.calls.get? (.client (submitter i))) (.submit (.scripted i)) =
      some call → o.returns (.client (submitter i)) (.submit (.scripted i)) = [] ∧
        ∃ p, call = ⟨.submit (.scripted i), .submission p⟩ ∧ p.after = .answer)
    (hroom : (o.state sys.state).nextThread.raw + unnumbered submitter
      (sys.apply (.client (submitter i)) (.submit (.scripted i)) o) i ≤
        sys.state.nextThread.raw + unnumbered submitter sys i) :
    w.Engaged submitter (sys.apply (.client (submitter i)) (.submit (.scripted i)) o) := by
  refine ⟨fun t call hcall => ?_, fun t ht => ?_, fun n call hcall => ?_, ?_⟩
  · rw [System.get?_calls_apply, if_neg (by simp)] at hcall
    have hknown := (h.seen t (hcall ▸ rfl)).2
    rw [System.returns_apply, Shadow.todo_append_of_ne (by simp) (hunit t hknown)]
    exact h.unit t call hcall
  · rw [System.get?_calls_apply, if_neg (by simp)] at ht
    rw [System.state_apply]
    exact hseen t (h.seen t ht).1 (h.seen t ht).2
  · rw [System.get?_calls_apply] at hcall
    split at hcall
    · next hn =>
      cases hn
      obtain ⟨hreturns, p, hcall, hafter⟩ := hown call hcall
      refine ⟨i, p, hi, rfl, ?_, hcall, hafter⟩
      rw [System.returns_apply, hreturns]
      exact hanswered
    · next hn =>
      obtain ⟨j, p, hj, hjn, hanswered', hrest⟩ := h.client n call hcall
      have hji : j ≠ i := fun heq => hn (by rw [← hjn, heq])
      refine ⟨j, p, hj, hjn, ?_, hrest⟩
      rw [System.returns_apply, answered_append (by simpa using Ne.symm hji)]
      exact hanswered'
  · have hsum := sum_add_le (f := unnumbered submitter
      (sys.apply (.client (submitter i)) (.submit (.scripted i)) o))
      (g := unnumbered submitter sys) (a := (o.state sys.state).nextThread.raw)
      (b := sys.state.nextThread.raw) hi
      (fun j hji => by rw [unnumbered, stage_apply_client hbefore hji, unnumbered]) (by omega)
    rw [System.state_apply]
    have hroom := h.room
    omega

/-- A client takes a number for the thread of a unit, waits for admission, or lists the thread. -/
lemma intake {p : Submission} (h : w.Engaged submitter sys) (hinv : Invariant sys)
    (hi : i < w.units.length)
    (hcall : sys.calls.get? (.client (submitter i)) = some ⟨.submit (.scripted i), .submission p⟩)
    (hanswered : answered i sys.returns = false) (hafter : p.after = .answer)
    (ho : Intake sys.config sys.state p o) :
    w.Engaged submitter (sys.apply (.client (submitter i)) (.submit (.scripted i)) o) := by
  have hbefore : ∀ call, sys.calls.get? (.client (submitter i)) = some call →
      call.operation = .submit (.scripted i) := fun call hcall' => by
    cases hcall.symm.trans hcall'
    rfl
  have hstage : stage submitter sys i = p.stage := stage_of_call hanswered hcall
  have hreply : ∀ s r, stage submitter (sys.apply (.client (submitter i)) (.submit (.scripted i))
      (.reply s r)) i = 0 := fun s r => by
    simp [stage, answered, System.returns_apply, Outcome.returns]
  have hunstarted : ∀ t, p.thread? = some t → sys.state.started? t = some false := fun t =>
    hinv.submitters.unstarted _ p t (Submitters.submission?_of_call hcall)
  have henrol : ∀ t, t.raw < sys.state.nextThread.raw → sys.state.started? t ≠ some false →
      t.raw < sys.state.enrol.nextThread.raw ∧ sys.state.enrol.started? t ≠ some false :=
    fun t ht hstarted => by
      have hne : t ≠ sys.state.nextThread := fun heq => absurd ht (by simp [heq])
      rw [Roster.started?_enrol, if_neg hne]
      exact ⟨Nat.lt_succ_of_lt ht, hstarted⟩
  have hlist : ∀ u work t, t.raw < sys.state.nextThread.raw → sys.state.started? t ≠ some false →
      t.raw < (sys.state.list u work).nextThread.raw ∧
        (sys.state.list u work).started? t ≠ some false := fun u work t ht hstarted => by
    rw [Roster.started?_list]
    refine ⟨ht, ?_⟩
    split
    · cases sys.state.started? t <;> simp
    · exact hstarted
  cases ho with
  | blocked work k =>
    refine h.apply_client hi hanswered hbefore henrol (by simp [Outcome.returns])
      (fun call hcall => ⟨rfl, _, (Option.some_inj.mp hcall).symm, hafter⟩) ?_
    simp [unnumbered, stage_goto hanswered, hstage, Submission.stage, Outcome.state,
      State.awaitAdmission, State.enrol, ThreadId.next]
  | passed work k =>
    refine h.apply_client hi hanswered hbefore henrol (by simp [Outcome.returns])
      (fun call hcall => ⟨rfl, _, (Option.some_inj.mp hcall).symm, hafter⟩) ?_
    simp [unnumbered, stage_goto hanswered, hstage, Submission.stage, Outcome.state, State.enrol,
      ThreadId.next]
  | sleepForAdmission t work k =>
    refine h.apply_client hi hanswered hbefore (fun t ht hstarted => ⟨ht, hstarted⟩)
      (by simp [Outcome.returns]) (fun call hcall' => ?_) (Nat.le_refl _)
    cases hcall.symm.trans hcall'
    exact ⟨rfl, _, rfl, hafter⟩
  | admitted t work k =>
    refine h.apply_client hi hanswered hbefore (fun t ht hstarted => ⟨ht, hstarted⟩)
      (by simp [Outcome.returns])
      (fun call hcall => ⟨rfl, _, (Option.some_inj.mp hcall).symm, hafter⟩) ?_
    simp [unnumbered, stage_goto hanswered, hstage, Submission.stage, Outcome.state]
  | listed t work =>
    refine h.apply_client hi hanswered hbefore (hlist t work) (fun u hu r hr => ?_)
      (fun call hcall => by cases hcall) ?_
    · have hne : t ≠ u := fun heq => hu (heq ▸ hunstarted t rfl)
      obtain rfl := List.mem_singleton.mp hr
      simp [Return.unit?, hne]
    · simp [unnumbered, hreply, Outcome.state, State.list, State.note, State.enter,
        State.modifyRecord]
  | unnamed t work k =>
    refine h.apply_client hi hanswered hbefore (fun t ht hstarted => ⟨ht, hstarted⟩)
      (fun u _ r hr => ?_) (fun call hcall => by cases hcall) ?_
    · obtain rfl := List.mem_singleton.mp hr
      rfl
    · simp [unnumbered, hreply, Outcome.state]
  | listedToCount | listedWithMore | listedLast | lacking | sufficient => cases hafter

/-- Every step under the discipline keeps the agreement. -/
theorem step (h : w.Engaged submitter sys) (hinv : Invariant sys)
    (hstep : w.Disciplined submitter sys sys') : w.Engaged submitter sys' := by
  cases h.undertaking hinv hstep with
  | call t o hinside hidle halive ho =>
    obtain ⟨r, hr, hstarted, -⟩ := exists_record_of_isAlive halive
    have hseen : sys.state.started? t = some true := by simp [started?, hr, hstarted]
    refine h.apply_unit hinv.sound rfl (ho.change (w := none))
      ⟨hinv.sound.roster.fresh t (by simp [hseen]), by simp [hseen]⟩ fun call hcall => ?_
    have hsubmits := Routine.submits_operation (w.todo t sys.returns)
    generalize (w.todo t sys.returns).operation = op at ho hcall hsubmits
    cases ho with
    | submit | fill => cases hsubmits
    | turn | lock | reconfigure | retire =>
      cases hcall
      exact ⟨rfl, _, rfl⟩
    | owner | unlinked | forgotten | relock | notOwner | released | handedOver => cases hcall
  | stretch t ph o hinside hcall hop ho =>
    refine h.apply_unit hinv.sound hop.symm (hinv.stretch_change hcall rfl ho)
      (h.seen t (by simp [hcall])) fun call hcall' => ?_
    cases o with
    | sleep =>
      cases hcall.symm.trans hcall'
      exact ⟨rfl, ph, rfl⟩
    | goto s' point =>
      obtain ⟨ph', rfl⟩ : ∃ ph', point = .thread t ph' := by cases ho <;> exact ⟨_, rfl⟩
      cases hcall'
      exact ⟨rfl, ph', rfl⟩
    | pause s' point => cases ho
    | reply s' r => cases hcall'
  | submit i hinside hi hidle hanswered =>
    refine h.apply_client hi hanswered (fun call hcall => ?_) (fun t ht hstarted => ⟨ht, hstarted⟩)
      (by simp [Outcome.returns]) (fun call hcall => ⟨rfl, _, (Option.some_inj.mp hcall).symm, rfl⟩)
      ?_
    · cases hidle.symm.trans hcall
    · have hone : unnumbered submitter sys i = 1 := by
        rw [unnumbered, stage_of_idle hanswered hidle]
        rfl
      rw [hone, unnumbered]
      split
      · exact Nat.le_refl _
      · exact Nat.le_succ _
  | intake i p o hinside hi hcall hanswered hafter ho =>
    exact h.intake hinv hi hcall hanswered hafter ho
  | enter a => exact ⟨h.unit, h.seen, h.client, h.room⟩

end Engaged

end Agenda

end RoundScheduler
