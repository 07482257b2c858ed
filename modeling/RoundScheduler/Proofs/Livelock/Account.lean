import RoundScheduler.Proofs.Livelock.Discipline

/-!
# What is left to do

What is still due in a run under a discipline is the sum of what is left in the routines of the
threads that were submitted and of what is in the routines of the other units. It counts
instructions of one kind, and the retirements. No step adds anything to it. A lock that was handed
to a thread which did not get to know it yet is work that was done but is still in the routine; such
locks are counted separately.
-/

namespace RoundScheduler

open State

/-! ### Routines -/

namespace Routine

/-- What is left after the first instruction is a part of the rest. -/
lemma countP_after_le (p : Instruction → Bool) (r : Routine) (v : Verdict) :
    (r.after v).countP p ≤ r.tail.countP p := by
  cases r with
  | nil => exact Nat.le_refl _
  | cons i rest =>
    cases v with
    | done => exact Nat.le_refl _
    | refused =>
      rw [after]
      split
      · exact Nat.zero_le _
      · exact Nat.le_refl _
    | failed => exact Nat.zero_le _

end Routine

/-- Whether an instruction takes an ordered step. -/
def Instruction.isOrdered (i : Instruction) : Bool :=
  match i.order with
  | .step _ => true
  | .unlock _ => false

namespace Routine

/-- A routine whose next operation takes an ordered step begins with one. -/
lemma countP_isOrdered {r : Routine} {p : Purpose} (h : r.operation = p.operation) :
    r.countP Instruction.isOrdered = r.tail.countP Instruction.isOrdered + 1 := by
  cases r with
  | nil => cases p <;> cases h
  | cons i rest =>
    have hop : operation (i :: rest) = Order.operation (.step p) := h
    have horder : some i.order = some (.step p) := head?_of_operation hop
    exact List.countP_cons_of_pos (by rw [Instruction.isOrdered, Option.some_inj.mp horder])

/-- A routine is over, or it is longer than what comes after its first instruction. -/
lemma countP_true {r : Routine} (h : r.operation ≠ .retire) :
    r.countP (fun _ => true) = r.tail.countP (fun _ => true) + 1 := by
  cases r with
  | nil => exact absurd rfl h
  | cons i rest => exact List.countP_cons_of_pos rfl

end Routine

namespace Agenda

variable {w : Agenda} {submitter : Nat → Nat} {sys sys' : System} {t u : ThreadId} {op : Operation}
  {o : Outcome} {i j : Nat} {p : Instruction → Bool} {cost : Nat}

/-- What a thread still has to do: instructions of one kind, and to retire. -/
def load (w : Agenda) (p : Instruction → Bool) (sys : System) (t : ThreadId) : Nat :=
  (w.todo t sys.returns).countP p + if sys.state.isAlive t then 1 else 0

/-- What a unit has to do whose submission was not answered; to submit it costs something, too. -/
def unsent (w : Agenda) (p : Instruction → Bool) (cost : Nat) (sys : System) (i : Nat) : Nat :=
  if answered i sys.returns then 0 else (w.routine i).countP p + cost

/-- What is still due. -/
def due (w : Agenda) (p : Instruction → Bool) (cost : Nat) (sys : System) : Nat :=
  ∑ t ∈ Finset.range w.units.length, w.load p sys ⟨t⟩ +
    ∑ i ∈ Finset.range w.units.length, w.unsent p cost sys i

/-! ### What an action of a thread does to it -/

/-- A reply takes the first instruction off the routine. -/
lemma todo_reply {s' : State} {r : Reply} :
    w.todo t (sys.apply (.unit t) op (.reply s' r)).returns =
      (w.todo t sys.returns).after r.verdict := by
  rw [System.returns_apply]
  simp [Outcome.returns, todo, Return.unit?]

/-- A thread has no more load if it has as much to do and did not come to life. -/
lemma load_le (htodo : w.todo t sys'.returns = w.todo t sys.returns)
    (halive : sys'.state.isAlive t = true → sys.state.isAlive t = true) :
    w.load p sys' t ≤ w.load p sys t := by
  rw [load, htodo, load]
  split
  · next ht => rw [if_pos (halive ht)]
  · omega

/-- An action of a thread changes what is due by what it changes for the thread. -/
lemma due_apply_unit {v : Option ThreadId} {a : Nat} (hs : sys.state.Sound)
    (hsubmits : op.submits = false) (hc : Change sys.state v (o.state sys.state))
    (ht : t.raw < w.units.length)
    (hown : w.load p (sys.apply (.unit t) op o) t + a ≤ w.load p sys t) :
    w.due p cost (sys.apply (.unit t) op o) + a ≤ w.due p cost sys := by
  have hothers := sum_add_le (f := fun u => w.load p (sys.apply (.unit t) op o) ⟨u⟩)
    (g := fun u => w.load p sys ⟨u⟩) (a := a) (b := 0) ht
    (fun u hu => load_le (todo_apply_unit fun heq => hu (congrArg ThreadId.raw heq))
      fun halive => hc.alive hs (by simpa using halive)) hown
  have hunsent : ∀ i, w.unsent p cost (sys.apply (.unit t) op o) i = w.unsent p cost sys i :=
    fun i => by rw [unsent, answered_apply_unit hsubmits, unsent]
  simp only [due, hunsent]
  omega

/-- An operation that returns to a thread ends the first instruction of its routine. -/
lemma load_reply {v : Option ThreadId} {s' : State} {r : Reply} (hs : sys.state.Sound)
    (hc : Change sys.state v s') :
    w.load p (sys.apply (.unit t) op (.reply s' r)) t + (w.todo t sys.returns).countP p ≤
      w.load p sys t + (w.todo t sys.returns).tail.countP p := by
  have hafter := Routine.countP_after_le p (w.todo t sys.returns) r.verdict
  have halive : (if (sys.apply (.unit t) op (.reply s' r)).state.isAlive t then 1 else 0) ≤
      if sys.state.isAlive t then 1 else 0 := by
    split
    · next ha => rw [if_pos (hc.alive hs ha)]
    · omega
  rw [load, todo_reply, load]
  omega

section Reply

variable {v : Option ThreadId} {s' : State} {r : Reply} (hs : sys.state.Sound)
  (hop : op = (w.todo t sys.returns).operation) (hc : Change sys.state v s')
  (ht : t.raw < w.units.length)

include hs hop hc ht

/-- An operation that returns adds nothing to what is due. -/
lemma due_reply_le : w.due p cost (sys.apply (.unit t) op (.reply s' r)) ≤ w.due p cost sys := by
  have hload : w.load p (sys.apply (.unit t) op (.reply s' r)) t + _ ≤ _ := load_reply hs hc
  have htail := (List.tail_sublist (w.todo t sys.returns)).countP_le (p := p)
  exact due_apply_unit (a := 0) hs (hop ▸ Routine.submits_operation _) hc ht (by omega)

/-- An instruction that counts is not due any more once its operation returned. -/
lemma due_reply_lt (hfirst : (w.todo t sys.returns).countP p =
    (w.todo t sys.returns).tail.countP p + 1) :
    w.due p cost (sys.apply (.unit t) op (.reply s' r)) + 1 ≤ w.due p cost sys := by
  have hload : w.load p (sys.apply (.unit t) op (.reply s' r)) t + _ ≤ _ := load_reply hs hc
  exact due_apply_unit hs (hop ▸ Routine.submits_operation _) hc ht (by omega)

end Reply

/-- A thread that retires has one thing less to do. -/
lemma due_retired {slot : Slot} {point : Point} (hs : sys.state.Sound)
    (hc : Change sys.state (some t) (sys.state.afterRetirement t slot))
    (halive : sys.state.isAlive t = true) (ht : t.raw < w.units.length) :
    w.due p cost (sys.apply (.unit t) .retire (.goto (sys.state.afterRetirement t slot) point)) +
      1 ≤ w.due p cost sys := by
  have hdead : (sys.state.afterRetirement t slot).isAlive t = false := by
    rw [isAlive, record?_afterRetirement]
    cases sys.state.record? t <;> simp
  refine due_apply_unit hs rfl hc ht ?_
  rw [load, load, halive, System.state_apply, Outcome.state, hdead]
  exact Nat.le_refl _

/-! ### What an action of a client does to it -/

/-- A client that goes on within a submission changes nothing. -/
lemma due_apply_client (hreturns : o.returns (.client (submitter i)) op = [])
    (halive : ∀ t, (o.state sys.state).isAlive t = true → sys.state.isAlive t = true) :
    w.due p cost (sys.apply (.client (submitter i)) op o) ≤ w.due p cost sys := by
  have hsame : (sys.apply (.client (submitter i)) op o).returns = sys.returns := by
    rw [System.returns_apply, hreturns, List.nil_append]
  refine Nat.add_le_add (Finset.sum_le_sum fun t _ => ?_) (Finset.sum_le_sum fun j _ => ?_)
  · exact load_le (by rw [hsame]) fun ht => halive _ (by simpa using ht)
  · rw [unsent, hsame, unsent]

/-- When a submission is answered its unit need not be submitted any more, and its thread has what
there was to do for the unit. -/
lemma due_answer {s' : State} {r : Reply} (hi : i < w.units.length)
    (hanswered : answered i sys.returns = false) (ht : t.raw < w.units.length)
    (hunit : ∀ u, u ≠ t → Return.unit? u ⟨.client (submitter i), .submit (.scripted i), r⟩ = none)
    (halive : ∀ u, u ≠ t → s'.isAlive u = true → sys.state.isAlive u = true) :
    w.due p cost (sys.apply (.client (submitter i)) (.submit (.scripted i)) (.reply s' r)) + cost ≤
      w.due p cost sys + 1 := by
  generalize hsys : sys.apply (.client (submitter i)) (.submit (.scripted i)) (.reply s' r) = sys'
  have hreturns : sys'.returns =
      ⟨.client (submitter i), .submit (.scripted i), r⟩ :: sys.returns := hsys ▸ rfl
  have hstate : sys'.state = s' := hsys ▸ rfl
  have hloads := sum_add_le (f := fun u => w.load p sys' ⟨u⟩) (g := fun u => w.load p sys ⟨u⟩)
    (a := 0) (b := (w.routine i).countP p + 1) ht (fun u hu => ?_) ?_
  have hunits := sum_add_le (f := w.unsent p cost sys') (g := w.unsent p cost sys)
    (a := (w.routine i).countP p + cost) (b := 0) hi (fun j hj => ?_) ?_
  · simp only [due]
    omega
  · have hother : answered j sys'.returns = answered j sys.returns := by
      simp [hreturns, answered, Ne.symm hj]
    rw [unsent, hother, unsent]
  · have hnow : answered i sys'.returns = true := by simp [hreturns, answered]
    rw [unsent, if_pos hnow, unsent, hanswered]
    simp
  · have hne : (⟨u⟩ : ThreadId) ≠ t := fun heq => hu (congrArg ThreadId.raw heq)
    refine load_le ?_ fun hu => halive _ hne (hstate ▸ hu)
    rw [hreturns, todo, hunit _ hne]
    simp
  · have htodo : (w.todo t sys'.returns).countP p ≤
        (w.todo t sys.returns).countP p + (w.routine i).countP p := by
      rw [hreturns, todo]
      cases r with
      | thread u =>
        by_cases hut : u = t <;> simp [Return.unit?, hut]
      | _ => simp [Return.unit?]
    have hone : (if sys'.state.isAlive t then 1 else 0) ≤ 1 := by
      split
      · exact Nat.le_refl _
      · exact Nat.zero_le _
    change w.load p sys' t + 0 ≤ w.load p sys t + _
    simp only [load]
    omega

/-- Nobody starts before its submission is answered. -/
lemma isAlive_goto {s' : State} {q : Submission} {point : Point}
    (ho : Intake sys.config sys.state q (.goto s' point)) (ht : s'.isAlive t = true) :
    sys.state.isAlive t = true := by
  cases ho with
  | blocked | passed => exact Shadow.alive_of_enrol ht
  | admitted => exact ht

/-- Once the submission of a unit is answered, it need not be submitted any more. -/
lemma due_reply_client {q : Submission} {s' : State} {r : Reply} (h : w.Engaged submitter sys)
    (hinv : Invariant sys) (hi : i < w.units.length)
    (hcall : sys.calls.get? (.client (submitter i)) = some ⟨.submit (.scripted i), .submission q⟩)
    (hafter : q.after = .answer) (hanswered : answered i sys.returns = false)
    (ho : Intake sys.config sys.state q (.reply s' r)) :
    w.due p cost (sys.apply (.client (submitter i)) (.submit (.scripted i)) (.reply s' r)) + cost ≤
      w.due p cost sys + 1 := by
  have hraw : ∀ t, q.thread? = some t → t.raw < w.units.length := fun t ht =>
    h.raw_lt hinv (hinv.isSome_of_submission (Submitters.submission?_of_call hcall) ht)
  cases ho with
  | listed t work =>
    refine due_answer hi hanswered (hraw t rfl) (fun u hu => by simp [Return.unit?, Ne.symm hu])
      fun u hu hualive => ?_
    rw [isAlive, record?_list] at hualive
    simpa [isAlive, hu] using hualive
  | unnamed t work => exact due_answer hi hanswered (hraw t rfl) (fun _ _ => rfl) fun _ _ => id
  | listedLast | sufficient => cases hafter

/-! ### Locks that were handed over -/

/-- Whether a lock was handed to a thread that does not know it yet. -/
def handed (sys : System) (t : ThreadId) : Nat :=
  match sys.operation? t with
  | some (.lock l) => if sys.state.ownerOf? l = some t then 1 else 0
  | _ => 0

/-- How many locks were handed to threads that do not know it yet. -/
def handedOver (w : Agenda) (sys : System) : Nat :=
  ∑ t ∈ Finset.range w.units.length, handed sys ⟨t⟩

/-- A thread that does not own the lock that it asks for was handed none. -/
lemma handed_eq_zero (h : ∀ l, sys.operation? t = some (.lock l) →
    sys.state.ownerOf? l ≠ some t) : handed sys t = 0 := by
  unfold handed
  split
  · next l hop => exact if_neg (h l hop)
  · rfl

/-- A thread that is in no operation was handed no lock. -/
lemma handed_of_idle (h : sys.operation? t = none) : handed sys t = 0 :=
  handed_eq_zero fun l hop => by cases h.symm.trans hop

/-- Whether a thread was handed a lock depends on its operation and on what it owns. -/
lemma handed_congr (hop : sys'.operation? t = sys.operation? t)
    (howner : ∀ l, sys'.state.ownerOf? l = some t ↔ sys.state.ownerOf? l = some t) :
    handed sys' t = handed sys t := by
  unfold handed
  rw [hop]
  split
  · next l _ => simp only [howner]
  · rfl

/-- What is handed to others does not depend on an action of a thread that leaves them their
locks. -/
lemma handed_apply_of_ne {a : Agent} (hua : a ≠ .unit u)
    (howner : ∀ l, (o.state sys.state).ownerOf? l = some u ↔ sys.state.ownerOf? l = some u) :
    handed (sys.apply a op o) u = handed sys u :=
  handed_congr (by rw [System.operation?_apply, if_neg (Ne.symm hua)]) (by simpa using howner)

/-- Whoever was handed a lock still has the request for it in its routine. -/
lemma Engaged.handed_le_load (h : w.Engaged submitter sys) (t : ThreadId) :
    handed sys t ≤ w.load Instruction.isOrdered sys t := by
  unfold handed
  split
  · next l hop =>
    obtain ⟨call, hcall, hlock⟩ := Option.map_eq_some_iff.mp hop
    obtain ⟨ph, rfl⟩ := h.unit t call hcall
    rw [load, Routine.countP_isOrdered (p := .lock l) hlock]
    split <;> omega
  · exact Nat.zero_le _

/-- No more locks were handed over than ordered steps are due. -/
lemma Engaged.handedOver_le_due (h : w.Engaged submitter sys) :
    w.handedOver sys ≤ w.due Instruction.isOrdered cost sys :=
  Nat.le_trans (Finset.sum_le_sum fun t _ => h.handed_le_load ⟨t⟩) (Nat.le_add_right _ _)

end Agenda

end RoundScheduler
