import RoundScheduler.Proofs.State.Change
import RoundScheduler.Proofs.Transition

/-!
# Flags and places

The record of a thread says whether it is finished, waits for its turn, or is in a queue, and each
of these flags belongs to a few places of an operation: a thread that has one of them stands at
such a place. This file states the agreement for one agent and shows that what others do keeps it.
-/

namespace RoundScheduler

/-! ### After an outcome -/

/-- The state after an outcome. -/
def Outcome.state (s : State) : Outcome → State
  | sleep => s
  | goto s' _ | pause s' _ | reply s' _ => s'

/-- The call under way after an outcome, given what it was before. -/
def Outcome.call? (before : Option Call) (op : Operation) : Outcome → Option Call
  | sleep => before
  | goto _ p | pause _ p => some ⟨op, p⟩
  | reply .. => none

/-- Who is inside the critical section after an outcome. -/
def Outcome.inside? (a : Agent) : Outcome → Option Agent
  | goto .. => some a
  | _ => none

/-- What an outcome returns. -/
def Outcome.returns (a : Agent) (op : Operation) : Outcome → List Return
  | reply _ r => [⟨a, op, r⟩]
  | _ => []

namespace System

variable (sys : System) (a : Agent) (op : Operation) (o : Outcome)

/-- The state after a move is that of its outcome. -/
@[simp] lemma state_apply : (sys.apply a op o).state = o.state sys.state := by cases o <;> rfl

/-- Who is inside after a move is told by its outcome. -/
@[simp] lemma inside_apply : (sys.apply a op o).inside = o.inside? a := by cases o <;> rfl

/-- The configuration never changes. -/
@[simp] lemma config_apply : (sys.apply a op o).config = sys.config := by cases o <;> rfl

/-- What a move returns is the latest return. -/
@[simp] lemma returns_apply : (sys.apply a op o).returns = o.returns a op ++ sys.returns := by
  cases o <;> rfl

/-- A move changes the call of the agent that makes it only. -/
lemma get?_calls_apply (b : Agent) : (sys.apply a op o).calls.get? b =
    if b = a then o.call? (sys.calls.get? a) op else sys.calls.get? b := by
  cases o with
  | sleep =>
    have h : (sys.apply a op .sleep).calls = sys.calls := rfl
    rw [h]
    split
    · next hb => rw [hb]; rfl
    · rfl
  | goto s p => exact Table.get?_set sys.calls a b _
  | pause s p => exact Table.get?_set sys.calls a b _
  | reply s r => exact Table.get?_erase sys.calls a b

end System

/-! ### What a place allows -/

/-- The place of a thread, if it is one. -/
def Point.phase? : Point → Option Phase
  | thread _ ph => some ph
  | submission _ => none

namespace Phase

/-- Whether a thread at the place may be finished. -/
def endsRound : Phase → Bool
  | awaitRoundEnd _ | check (.awaitRoundEnd _) => true
  | _ => false

/-- Whether a thread at the place may be waiting for its turn. -/
def awaitsTurn : Phase → Bool
  | awaitTurn _ | check (.awaitTurn _) => true
  | _ => false

/-- The lock in whose queue a thread at the place may be. -/
def queue? : Phase → Option LockId
  | awaitHandOver l | check (.awaitHandOver l) => some l
  | _ => none

/-- What a step is taken for that is still to be taken. -/
def purpose? : Phase → Option Purpose
  | enter p | awaitPrimary p | awaitRoundEnd p | awaitTurn p => some p
  | check (.awaitRoundEnd p) | check (.awaitTurn p) => some p
  | fill _ _ (.takeStep p) | fill _ _ (.recheck (.awaitRoundEnd p)) => some p
  | fill _ _ (.recheck (.awaitTurn p)) => some p
  | _ => none

/-- Whoever is in the queue of a lock asked for it. -/
lemma operation_of_queue? {ph : Phase} {l : LockId} (h : ph.queue? = some l) :
    ph.operation = .lock l := by
  cases ph with
  | awaitHandOver m =>
    cases h
    rfl
  | check k =>
    cases k <;> cases h
    rfl
  | _ => cases h

/-- Only retiring threads leave. -/
lemma operation_of_leaving {ph : Phase} (h : ph.leaving = true) : ph.operation = .retire := by
  cases ph with
  | check k =>
    cases k with
    | leave => rfl
    | _ => cases h
  | fill _ _ k =>
    cases k with
    | recheck k =>
      cases k with
      | leave => rfl
      | _ => cases h
    | _ => cases h
  | _ => cases h

end Phase

namespace State

variable {s s' : State} {t : ThreadId}

/-- The flags of the thread `t` agree with its place, if it has one. -/
structure Poised (s : State) (t : ThreadId) (ph : Option Phase) : Prop where
  /-- Who is finished waits for the end of the round. -/
  finished : s.isFinished t = true → ph.any Phase.endsRound = true
  /-- Who is told to wait for its turn does so. -/
  waiting : s.isWaiting t = true → ph.any Phase.awaitsTurn = true
  /-- Who is in a queue waits for the lock to be handed over. -/
  linked : ∀ l, s.linkOf? t = some l → ph.bind Phase.queue? = some l
  /-- Nobody asks for a lock that it owns. -/
  asking : ∀ l k, ph.bind Phase.purpose? = some (.lock l) → s.lock? l = some k →
    k.owner ≠ some t

/-- The thread `t` is neither finished nor waiting nor in a queue. -/
structure Unflagged (s : State) (t : ThreadId) : Prop where
  finished : s.isFinished t = false
  waiting : s.isWaiting t = false
  linked : s.linkOf? t = none

/-- A thread that does not wait for the end of a round has not finished. -/
lemma Poised.not_finished {ph : Option Phase} (h : Poised s t ph)
    (hph : ph.any Phase.endsRound = false) : s.isFinished t = false :=
  Bool.eq_false_iff.mpr (mt h.finished (by simp [hph]))

/-- A thread that does not wait for its turn has no flag that says so. -/
lemma Poised.not_waiting {ph : Option Phase} (h : Poised s t ph)
    (hph : ph.any Phase.awaitsTurn = false) : s.isWaiting t = false :=
  Bool.eq_false_iff.mpr (mt h.waiting (by simp [hph]))

/-- A thread that does not wait for a lock has no link. -/
lemma Poised.not_linked {ph : Option Phase} (h : Poised s t ph)
    (hph : ph.bind Phase.queue? = none) : s.linkOf? t = none :=
  Option.eq_none_iff_forall_ne_some.mpr fun l hl =>
    Option.some_ne_none l ((h.linked l hl).symm.trans hph)

/-- A thread that waits for nothing has no flag. -/
lemma Poised.unflagged {ph : Option Phase} (h : Poised s t ph)
    (hfinished : ph.any Phase.endsRound = false) (hwaiting : ph.any Phase.awaitsTurn = false)
    (hlinked : ph.bind Phase.queue? = none) : Unflagged s t :=
  ⟨h.not_finished hfinished, h.not_waiting hwaiting, h.not_linked hlinked⟩

/-- A thread without flags may stand anywhere, as long as it asks for no lock that it owns. -/
lemma Unflagged.poised (h : Unflagged s t) {ph : Option Phase}
    (hasking : ∀ l k, ph.bind Phase.purpose? = some (.lock l) → s.lock? l = some k →
      k.owner ≠ some t) : Poised s t ph where
  finished hf := by simp [h.finished] at hf
  waiting hw := by simp [h.waiting] at hw
  linked l hl := by simp [h.linked] at hl
  asking := hasking

/-- A thread without flags may stand anywhere where it asks for no lock. -/
lemma Unflagged.poised_of_free (h : Unflagged s t) {ph : Option Phase}
    (hfree : (ph.bind Phase.purpose?).bind Purpose.lock? = none) : Poised s t ph :=
  h.poised fun l k hp _ => by simp [hp, Purpose.lock?] at hfree

/-- Whoever has no flag gets none in a change of somebody else. -/
lemma Unflagged.calm (h : Unflagged s t) (hc : Calm s s' t) : Unflagged s' t where
  finished := Bool.eq_false_iff.mpr (mt hc.finished (by simp [h.finished]))
  waiting := Bool.eq_false_iff.mpr (mt hc.waiting (by simp [h.waiting]))
  linked := Option.eq_none_iff_forall_ne_some.mpr fun l hl =>
    Option.some_ne_none l ((hc.linked hl).symm.trans h.linked)

/-- A lock that a thread asks for is not handed to it meanwhile, because nobody asks for a lock
while it is in a queue. -/
lemma Poised.asking_calm {ph : Option Phase} (h : Poised s t ph) (hc : Calm s s' t) (l : LockId)
    (k : LockState) (hp : ph.bind Phase.purpose? = some (.lock l)) (hk : s'.lock? l = some k) :
    k.owner ≠ some t := by
  intro howner
  rcases hc.owner l k hk howner with ⟨k₀, hk₀, howner₀⟩ | hlink
  · exact h.asking l k₀ hp hk₀ howner₀
  · have hqueue := h.linked l hlink
    obtain ⟨ph, rfl, hq⟩ := Option.bind_eq_some_iff.mp hqueue
    cases ph with
    | awaitHandOver l => simp [Phase.purpose?] at hp
    | check k => cases k <;> simp [Phase.purpose?, Phase.queue?] at hp hq
    | _ => simp [Phase.queue?] at hq

/-- What others do leaves the flags of a thread in agreement with its place. -/
lemma Poised.calm {ph : Option Phase} (h : Poised s t ph) (hc : Calm s s' t) : Poised s' t ph where
  finished hf := h.finished (hc.finished hf)
  waiting hw := h.waiting (hc.waiting hw)
  linked l hl := h.linked l (hc.linked hl)
  asking := h.asking_calm hc

end State

/-! ### Where an agent stands -/

/-- Whether an operation starts threads. -/
def Operation.submits : Operation → Bool
  | submit _ | fill _ => true
  | _ => false

/-- The state agrees with the call of an agent, if there is one. -/
inductive Placed (s : State) : Agent → Option Call → Prop
  /-- A thread is in no operation. -/
  | idle (t : ThreadId) (hpoised : s.Poised t none) : Placed s (.unit t) none
  /-- A thread is in an operation that needs its turn. -/
  | thread (t : ThreadId) (ph : Phase) (hpoised : s.Poised t (some ph))
    (halive : ph.leaving = false → s.isAlive t = true)
    (hlocks : ∀ l ∈ ph.operation.locks, (s.lock? l).isSome) :
    Placed s (.unit t) (some ⟨ph.operation, .thread t ph⟩)
  /-- A thread starts threads. -/
  | submitter (t : ThreadId) (op : Operation) (p : Submission) (hop : op.submits = true)
    (hpoised : s.Poised t none) (halive : s.isAlive t = true) :
    Placed s (.unit t) (some ⟨op, .submission p⟩)
  /-- Somebody outside is in no operation. -/
  | outside (n : Nat) : Placed s (.client n) none
  /-- Somebody outside starts threads. -/
  | client (n : Nat) (op : Operation) (p : Submission) (hop : op.submits = true) :
    Placed s (.client n) (some ⟨op, .submission p⟩)

/-- The thread that an agent is, if it is one. -/
def Agent.thread? : Agent → Option ThreadId
  | unit t => some t
  | client _ => none

variable {s s' : State} {t : ThreadId} {a : Agent}

/-- What others do leaves the state in agreement with the call of an agent. -/
lemma Placed.calm {c : Option Call} (h : Placed s a c)
    (hcalm : ∀ t, a.thread? = some t → State.Calm s s' t)
    (hlocks : ∀ call, c = some call → ∀ l ∈ call.operation.locks, (s.lock? l).isSome →
      (s'.lock? l).isSome) : Placed s' a c := by
  cases h with
  | idle t hpoised => exact .idle t (hpoised.calm (hcalm t rfl))
  | thread t ph hpoised halive hregistered =>
    exact .thread t ph (hpoised.calm (hcalm t rfl)) (fun hph => (hcalm t rfl).alive (halive hph))
      fun l hl => hlocks _ rfl l hl (hregistered l hl)
  | submitter t op p hop hpoised halive =>
    exact .submitter t op p hop (hpoised.calm (hcalm t rfl)) ((hcalm t rfl).alive halive)
  | outside n => exact .outside n
  | client n op p hop => exact .client n op p hop

/-- The flags of a thread fit its place. -/
lemma Placed.poised {c : Option Call} (h : Placed s (.unit t) c) :
    s.Poised t (c.bind fun call => call.point.phase?) := by
  cases h with
  | idle _ hpoised => exact hpoised
  | thread _ ph hpoised _ _ => exact hpoised
  | submitter _ op p _ hpoised _ => exact hpoised

/-- What is known of an agent that is at the place of a thread. -/
lemma Placed.of_thread {op : Operation} {ph : Phase}
    (h : Placed s a (some ⟨op, .thread t ph⟩)) :
    a = .unit t ∧ op = ph.operation ∧ s.Poised t (some ph) ∧
      (ph.leaving = false → s.isAlive t = true) ∧
      ∀ l ∈ ph.operation.locks, (s.lock? l).isSome := by
  obtain ⟨c, hc⟩ : ∃ c : Option Call, c = some ⟨op, .thread t ph⟩ := ⟨_, rfl⟩
  rw [← hc] at h
  cases h with
  | idle => cases hc
  | thread t ph hpoised halive hlocks =>
    cases hc
    exact ⟨rfl, rfl, hpoised, halive, hlocks⟩
  | submitter => cases hc
  | outside => cases hc
  | client => cases hc

/-- The locks that an operation under way uses exist. -/
lemma Placed.locks {call : Call} (h : Placed s a (some call)) :
    ∀ l ∈ call.operation.locks, (s.lock? l).isSome := by
  obtain ⟨op, point⟩ := call
  have hnone : op.submits = true → op.locks = [] := fun hop => by
    cases op with
    | submit | fill => rfl
    | _ => cases hop
  cases h with
  | thread t ph hpoised halive hlocks => exact hlocks
  | submitter t op p hop | client n op p hop => simp [hnone hop]

/-- A thread in an operation is alive until it leaves for good. -/
lemma Placed.alive {op : Operation} {ph : Phase} (h : Placed s a (some ⟨op, .thread t ph⟩))
    (hph : ph.leaving = false) : s.isAlive t = true := h.of_thread.2.2.2.1 hph

end RoundScheduler
