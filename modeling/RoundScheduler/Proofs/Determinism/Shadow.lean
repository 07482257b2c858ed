import RoundScheduler.Proofs.Determinism.Mirror
import RoundScheduler.Proofs.Invariant

/-!
# The course of a system

A system that follows an agenda has a course: one that mirrors the state, with the fill of the round
as far as its filler got, and with the routines as the returns so far leave them. A thread that was
handed a lock and has not learnt of it is the only one whose routine is further on in the course
than its returns say. This file defines the relation and says what it takes to keep it.
-/

namespace RoundScheduler

open State

/-- The lock for which a place waits, or will wait once the round was looked at. -/
def Phase.awaited? : Phase → Option LockId
  | awaitHandOver l | check (.awaitHandOver l) | fill _ _ (.recheck (.awaitHandOver l)) => some l
  | _ => none

/-- Whoever stands in the queue of a lock awaits it. -/
lemma Phase.awaited?_of_queue? {ph : Phase} {l : LockId} (h : ph.queue? = some l) :
    ph.awaited? = some l := by
  cases ph with
  | awaitHandOver m => exact h
  | check k =>
    cases k with
    | awaitHandOver m => exact h
    | _ => cases h
  | _ => cases h

/-- Who asks for a step was handed nothing meanwhile. -/
lemma Phase.awaited?_of_purpose? {ph : Phase} {p : Purpose} (h : ph.purpose? = some p) :
    ph.awaited? = none := by
  cases ph with
  | awaitHandOver m => cases h
  | check k => cases k <;> first | rfl | cases h
  | fill index plan k =>
    cases k with
    | recheck k => cases k <;> first | rfl | cases h
    | _ => rfl
  | _ => rfl

/-- The operation of a phase with a purpose is the one for that purpose. -/
lemma Phase.operation_of_purpose? {ph : Phase} {p : Purpose} (h : ph.purpose? = some p) :
    ph.operation = p.operation := by
  cases ph with
  | check k =>
    cases k <;> cases h <;> rfl
  | fill index plan k =>
    cases k with
    | recheck k => cases k <;> cases h <;> rfl
    | _ => cases h <;> rfl
  | _ => cases h <;> rfl

/-- Whoever fills a round waits for the same lock all the while. -/
lemma AfterFill.awaited?_fill (k : AfterFill) (index index' : Nat) (plan plan' : RoundConfig) :
    (Phase.fill index plan k).awaited? = (Phase.fill index' plan' k).awaited? := by
  cases k with
  | recheck k => cases k <;> rfl
  | _ => rfl

/-- After the fill a thread awaits what it awaited during the fill. -/
lemma AfterFill.awaited?_phase (k : AfterFill) (index : Nat) (plan : RoundConfig) :
    k.phase.awaited? = (Phase.fill index plan k).awaited? := by
  cases k with
  | recheck k => cases k <;> rfl
  | _ => rfl

/-- Whether a thread at a place was handed the lock that it waits for. -/
def Course.hands (c : Course) (t : ThreadId) (ph? : Option Phase) : Bool :=
  (ph?.bind Phase.awaited?).any fun l => c.desk.owner l = some t

/-- A thread is in the operation that comes next in its routine, and the course agrees on what is
left of the routine. -/
structure Agenda.Keeps (w : Agenda) (sys : System) (c : Course) (t : ThreadId) : Prop where
  operation : ∀ call, sys.calls.get? (.unit t) = some call →
    call.operation = (w.todo t sys.returns).operation
  todo : c.desk.todo t =
    if c.hands t (sys.phase? (.unit t)) then (w.todo t sys.returns).after .done
    else w.todo t sys.returns

/-- Where the client stands that submits the unit with the number `n`, if `next` is the thread that
gets the next number. -/
inductive Submitting (n : Nat) (next : ThreadId) : Option Call → Prop
  /-- It is outside. -/
  | outside (hnext : next.raw = n) : Submitting n next none
  /-- It is about to take a number. -/
  | enrol (hnext : next.raw = n) : Submitting n next
    (some ⟨.submit (.scripted n), .submission (.enrol (.scripted n) .answer)⟩)
  /-- It waits for admission. -/
  | wait (hnext : next.raw = n + 1) : Submitting n next
    (some ⟨.submit (.scripted n), .submission (.awaitAdmission ⟨n⟩ (.scripted n) .answer)⟩)
  /-- It is about to list the thread. -/
  | list (hnext : next.raw = n + 1) : Submitting n next
    (some ⟨.submit (.scripted n), .submission (.list ⟨n⟩ (.scripted n) .answer)⟩)

/-- A course is what is left of a system that follows an agenda. -/
structure Shadow (w : Agenda) (sys : System) (c : Course) : Prop where
  mirrors : c.Mirrors sys.state
  filling : ∀ f, c.filling = some f ↔ ∃ a, sys.fill? a = some f
  keeps : ∀ t, sys.state.isAlive t = true → w.Keeps sys c t
  /-- Every submission lists a thread, if workers can be named. -/
  listed : c.listed = if sys.config.namesWorkers then Agenda.submissions sys.returns else 0
  /-- Threads that call operations were listed, and they submit nothing. -/
  units : ∀ t call, sys.calls.get? (.unit t) = some call →
    t.raw < c.listed ∧ call.operation.submits = false
  client : Submitting (Agenda.submissions sys.returns) sys.state.nextThread
    (sys.calls.get? (.client 0))
  /-- There are no other clients. -/
  clients : ∀ n, sys.calls.get? (.client (n + 1)) = none

namespace Routine

variable {r : Routine}

/-- What a thread calls says what it asks for. -/
lemma head?_of_operation {order : Order} (h : r.operation = order.operation) :
    r.head?.map (·.order) = some order := by
  cases r with
  | nil =>
    cases order with
    | step p => cases p <;> cases h
    | unlock l => cases h
  | cons i rest =>
    obtain ⟨order', required⟩ := i
    simp only [List.head?_cons, Option.map_some, Option.some_inj]
    cases order with
    | step p => cases order' with
      | step p' => cases p <;> cases p' <;> cases h <;> rfl
      | unlock l' => cases p <;> cases h
    | unlock l => cases order' with
      | step p' => cases p' <;> cases h
      | unlock l' => cases h; rfl

/-- A thread retires once its routine is over. -/
lemma eq_nil_of_operation (h : r.operation = .retire) : r = [] := by
  cases r with
  | nil => rfl
  | cons i rest =>
    obtain ⟨order, required⟩ := i
    cases order with
    | step p => cases p <;> cases h
    | unlock l => cases h

end Routine

namespace Shadow

variable {w : Agenda} {sys : System} {c c' : Course} {t u : ThreadId} {op : Operation} {o : Outcome}
  {ph ph' : Phase} {s' : State}

/-! ### Returns -/

/-- What others return does not matter to a thread. -/
lemma todo_append_of_ne {a : Agent} (hta : a ≠ .unit t)
    (hunit : ∀ r ∈ o.returns a op, r.unit? t = none) (returns : List Return) :
    w.todo t (o.returns a op ++ returns) = w.todo t returns := by
  cases o with
  | reply s r =>
    have hnone : Return.unit? t ⟨a, op, r⟩ = none := hunit _ (List.mem_singleton.mpr rfl)
    simp [Outcome.returns, Agenda.todo, hnone, hta]
  | _ => rfl

/-- The return of a unit leaves what the others have to do. -/
lemma todo_append_of_unit (htu : t ≠ u) (returns : List Return) :
    w.todo u (o.returns (.unit t) op ++ returns) = w.todo u returns := by
  refine todo_append_of_ne (by simpa using htu) (fun r hr => ?_) returns
  cases o with
  | reply s r' =>
    cases List.mem_singleton.mp hr
    rfl
  | _ => cases hr

/-- The return of a unit is no submission of the client. -/
lemma submissions_append_of_unit (returns : List Return) :
    Agenda.submissions (o.returns (.unit t) op ++ returns) = Agenda.submissions returns := by
  cases o <;> simp [Outcome.returns, Agenda.submissions]

/-! ### Who fills the round -/

/-- The course agrees on the fill if nobody but one agent can fill the round. -/
lemma filling_of_single {a : Agent} (hother : ∀ b, b ≠ a → sys.fill? b = none)
    (ha : sys.fill? a = c.filling) (f : Nat × RoundConfig) :
    c.filling = some f ↔ ∃ b, sys.fill? b = some f := by
  constructor
  · intro hf
    exact ⟨a, ha.trans hf⟩
  · rintro ⟨b, hb⟩
    by_cases hba : b = a
    · exact ha.symm.trans (hba ▸ hb)
    · simp [hother b hba] at hb

/-! ### Threads -/

/-- Where somebody stands is a matter of the call. -/
lemma phase?_of_call {sys' : System} {a : Agent} (hcall : sys'.calls.get? a = sys.calls.get? a) :
    sys'.phase? a = sys.phase? a := by
  rw [System.phase?, hcall, System.phase?]

/-- Nobody is handed a lock without awaiting one. -/
lemma hands_of_awaited? (h : ph.awaited? = none) : c.hands t (some ph) = false := by
  simp [Course.hands, h]

/-- Whether a thread was handed a lock is a matter of what it owns. -/
lemma hands_of_owner (howner : ∀ l, c'.desk.owner l = some t ↔ c.desk.owner l = some t)
    (ph? : Option Phase) : c'.hands t ph? = c.hands t ph? := by
  unfold Course.hands
  congr 1
  funext l
  exact decide_eq_decide.mpr (howner l)

/-- A thread that stays where it is keeps up with a course that leaves it alone. -/
lemma keeps_of_same (h : w.Keeps sys c t) {sys' : System}
    (hcall : sys'.calls.get? (.unit t) = sys.calls.get? (.unit t))
    (hreturns : w.todo t sys'.returns = w.todo t sys.returns)
    (htodo : c'.desk.todo t = c.desk.todo t)
    (howner : ∀ l, c'.desk.owner l = some t ↔ c.desk.owner l = some t) : w.Keeps sys' c' t where
  operation call hcall' := hreturns ▸ h.operation call (hcall ▸ hcall')
  todo := by
    rw [htodo, phase?_of_call hcall, hands_of_owner howner, hreturns]
    exact h.todo

/-- A thread that is handed a lock was waiting for it, and is done. -/
lemma keeps_of_handed (h : w.Keeps sys c t) (hinv : Invariant sys) (hmirrors : c.Mirrors sys.state)
    (hdesk : c.desk.Sound) {sys' : System} {l : LockId}
    (hcall : sys'.calls.get? (.unit t) = sys.calls.get? (.unit t))
    (hreturns : w.todo t sys'.returns = w.todo t sys.returns)
    (hhanded : Desk.Handed c.desk c'.desk t l) : w.Keeps sys' c' t where
  operation call hcall' := hreturns ▸ h.operation call (hcall ▸ hcall')
  todo := by
    have hlink : sys.state.linkOf? t = some l := (hmirrors.link t).symm.trans hhanded.link_before
    obtain ⟨ph, hph, hqueue⟩ :=
      Option.bind_eq_some_iff.mp ((hinv.placed (.unit t)).poised.linked l hlink)
    have hph : sys.phase? (.unit t) = some ph := hph
    have hbefore : c.hands t (some ph) = false := by
      simpa [Course.hands, Phase.awaited?_of_queue? hqueue] using
        (hdesk.asking t l hhanded.link_before).2
    have hafter : c'.hands t (some ph) = true := by
      simpa [Course.hands, Phase.awaited?_of_queue? hqueue] using (hhanded.owner l).mpr (.inl rfl)
    have htodo := h.todo
    rw [hph, hbefore, if_neg Bool.false_ne_true] at htodo
    rw [phase?_of_call hcall, hph, hafter, if_pos rfl, hhanded.todo, htodo, hreturns]

/-- What a thread leaves of its routine while it goes on in an operation. -/
lemma keeps_goto (h : w.Keeps sys c t)
    (hcall : sys.calls.get? (.unit t) = some ⟨op, .thread t ph⟩)
    (htodo : c'.desk.todo t = c.desk.todo t)
    (hhands : c'.hands t (some ph') = c.hands t (some ph)) :
    w.Keeps (sys.apply (.unit t) op (.goto s' (.thread t ph'))) c' t where
  operation call hcall' := by
    rw [System.get?_calls_apply, if_pos rfl] at hcall'
    cases hcall'
    have hop : op = (w.todo t sys.returns).operation := h.operation _ hcall
    exact hop
  todo := by
    have hbefore : sys.phase? (.unit t) = some ph := by rw [System.phase?, hcall]; rfl
    have hafter : (sys.apply (.unit t) op (.goto s' (.thread t ph'))).phase? (.unit t) =
        some ph' := by
      rw [System.phase?_apply hcall, if_pos rfl]
      rfl
    have hold := h.todo
    rw [hbefore] at hold
    rw [hafter, hhands, htodo]
    exact hold

/-- What a thread leaves of its routine when it is answered. -/
lemma keeps_reply {r : Reply}
    (htodo : c'.desk.todo t = (w.todo t sys.returns).after r.verdict) :
    w.Keeps (sys.apply (.unit t) op (.reply s' r)) c' t where
  operation call hcall := by
    rw [System.get?_calls_apply, if_pos rfl] at hcall
    cases hcall
  todo := by
    have hphase : (sys.apply (.unit t) op (.reply s' r)).phase? (.unit t) = none := by
      rw [System.phase?, System.get?_calls_apply, if_pos rfl]
      rfl
    have hreturns : w.todo t (sys.apply (.unit t) op (.reply s' r)).returns =
        (w.todo t sys.returns).after r.verdict := by
      simp [Outcome.returns, Agenda.todo, Return.unit?]
    rw [hphase, hreturns, htodo]
    rfl

/-- What a thread does leaves the others where they are, unless it hands them a lock. -/
theorem apply_unit {v : Option ThreadId} (h : Shadow w sys c) (hinv : Invariant sys)
    (hs : c.Sound w.routine) (hchange : Change sys.state v (o.state sys.state))
    (hlisted : t.raw < c.listed) (hsubmits : op.submits = false)
    (hmirrors : c'.Mirrors (o.state sys.state)) (hsame : c'.listed = c.listed)
    (hfilling : ∀ f, c'.filling = some f ↔ ∃ a, (sys.apply (.unit t) op o).fill? a = some f)
    (hothers : ∀ u, u ≠ t →
      (c'.desk.todo u = c.desk.todo u ∧ ∀ l, c'.desk.owner l = some u ↔ c.desk.owner l = some u) ∨
        ∃ l, Desk.Handed c.desk c'.desk u l)
    (hown : w.Keeps sys c t → w.Keeps (sys.apply (.unit t) op o) c' t) :
    Shadow w (sys.apply (.unit t) op o) c' where
  mirrors := by
    rw [System.state_apply]
    exact hmirrors
  filling := hfilling
  keeps u hu := by
    rw [System.state_apply] at hu
    have hkeeps := h.keeps u (hchange.alive hinv.sound hu)
    by_cases hut : u = t
    · subst hut
      exact hown hkeeps
    · have hcall : (sys.apply (.unit t) op o).calls.get? (.unit u) = sys.calls.get? (.unit u) := by
        rw [System.get?_calls_apply, if_neg (by simpa using hut)]
      have hreturns : w.todo u (sys.apply (.unit t) op o).returns = w.todo u sys.returns := by
        rw [System.returns_apply]
        exact todo_append_of_unit (Ne.symm hut) _
      rcases hothers u hut with ⟨htodo, howner⟩ | ⟨l, hhanded⟩
      · exact keeps_of_same hkeeps hcall hreturns htodo howner
      · exact keeps_of_handed hkeeps hinv h.mirrors hs.desk hcall hreturns hhanded
  listed := by
    rw [System.config_apply, System.returns_apply, submissions_append_of_unit, hsame]
    exact h.listed
  units u call hcall := by
    rw [System.get?_calls_apply] at hcall
    rw [hsame]
    split at hcall
    · next hut =>
      cases hut
      cases o with
      | sleep => exact h.units _ call hcall
      | reply s r => cases hcall
      | _ =>
        cases hcall
        exact ⟨hlisted, hsubmits⟩
    · exact h.units u call hcall
  client := by
    rw [System.returns_apply, submissions_append_of_unit, System.state_apply, hchange.nextThread_eq,
      System.get?_calls_apply, if_neg (by simp)]
    exact h.client
  clients n := by
    rw [System.get?_calls_apply, if_neg (by simp)]
    exact h.clients n

end Shadow

end RoundScheduler
