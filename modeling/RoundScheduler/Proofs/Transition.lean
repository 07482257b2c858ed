import Mathlib.Logic.Relation
import RoundScheduler.Proofs.Stretch
import RoundScheduler.System

/-!
# Transitions of a system

A move of a system begins an operation, lets whoever is inside the critical section go one place
further, lets somebody enter it, or creates or drops a lock. This file says what can be reached by
moves, and lists what the first stretch of an operation and the stretches of a submitter do, as
`Stretch` does for threads. `Transition` puts the lists together: one constructor for every way in
which a sound system can move.
-/

namespace RoundScheduler

namespace System

/-- Whoever locks the mutex finds the state behind it, poisoned or not. -/
@[simp] lemma recover_acquire (sys : System) : sys.acquire.recover = sys.state := by
  unfold acquire
  split <;> rfl

section Moves

variable {sys sys' : System} {eligible : ThreadId → Bool} {a : Agent}

/-- An operation is called outside of the critical section, by somebody who is alive and in no
operation, on locks that exist. -/
lemma move?_call_eq_some_iff {op : Operation} : sys.move? eligible (.call a op) = some sys' ↔
    (((sys.inside = none ∧ sys.calls.get? a = none) ∧ sys.isAlive a = true) ∧
      ∀ l ∈ op.locks, sys.state.locks.contains l = true) ∧
      ∃ o, op.start? sys.state a = some o ∧ sys.apply a op o = sys' := by
  simp only [move?, recover_acquire, Option.ite_none_right_eq_some, Bool.and_eq_true,
    Option.isNone_iff_eq_none, List.all_eq_true, Option.map_eq_some_iff]

/-- Whoever is in an operation enters the critical section if nobody is inside. -/
lemma move?_enter_eq_some_iff : sys.move? eligible (.enter a) = some sys' ↔
    (sys.inside = none ∧ (sys.calls.get? a).isSome) ∧ { sys with inside := some a } = sys' := by
  simp only [move?, recover_acquire, Option.ite_none_right_eq_some, Bool.and_eq_true,
    Option.isNone_iff_eq_none, Option.some_inj]

/-- A lock is created outside of the critical section. -/
lemma move?_newLock_eq_some_iff : sys.move? eligible .newLock = some sys' ↔
    sys.inside = none ∧ { sys with state := sys.state.registerLock } = sys' := by
  simp only [move?, recover_acquire, Option.ite_none_right_eq_some, Option.isNone_iff_eq_none,
    Option.some_inj]

/-- A lock is dropped outside of the critical section, if it exists and no operation uses it. -/
lemma move?_dropLock_eq_some_iff {l : LockId} : sys.move? eligible (.dropLock l) = some sys' ↔
    ((sys.inside = none ∧ sys.state.locks.contains l = true) ∧ sys.uses l = false) ∧
      { sys with state := sys.state.dropLock l } = sys' := by
  simp only [move?, recover_acquire, Option.ite_none_right_eq_some, Bool.and_eq_true,
    Bool.not_eq_true', Option.isNone_iff_eq_none, Option.some_inj]

end Moves

/-- One system comes from another by a move, under some rule of eligibility. -/
def Step (sys sys' : System) : Prop := ∃ eligible m, sys.move? eligible m = some sys'

/-- One system comes from another by moves; the rule of eligibility may change between them. -/
abbrev Path : System → System → Prop := Relation.ReflTransGen Step

/-- A system can be reached from one with the configuration `c` that nobody used yet. -/
def Reachable (c : Config) (sys : System) : Prop := ∃ start, initial c = .ok start ∧ Path start sys

/-- What a step leads to is reachable. -/
lemma Reachable.step {c : Config} {sys sys' : System} (h : Reachable c sys) (hs : Step sys sys') :
    Reachable c sys' := by
  obtain ⟨start, hstart, hpath⟩ := h
  exact ⟨start, hstart, hpath.tail hs⟩

/-- What a path leads to is reachable. -/
lemma Reachable.path {c : Config} {sys sys' : System} (h : Reachable c sys) (hp : Path sys sys') :
    Reachable c sys' := by
  obtain ⟨start, hstart, hpath⟩ := h
  exact ⟨start, hstart, hpath.trans hp⟩

/-- What holds of systems that nobody used and is kept by every move holds of every system that can
be reached. -/
@[elab_as_elim]
theorem Reachable.induction {c : Config} {motive : ∀ sys, Reachable c sys → Prop}
    (initial : ∀ sys (h : initial c = .ok sys), motive sys ⟨sys, h, .refl⟩)
    (step : ∀ sys sys' (h : Reachable c sys) (hs : Step sys sys'),
      motive sys h → motive sys' (h.step hs))
    {sys : System} (h : Reachable c sys) : motive sys h := by
  obtain ⟨start, hstart, hpath⟩ := h
  induction hpath with
  | refl => exact initial start hstart
  | tail hpath hs ih => exact step _ _ ⟨start, hstart, hpath⟩ hs ih

/-! ### Runs under one rule of eligibility -/

/-- One system comes from another by a move under the rule of eligibility. -/
def StepUnder (eligible : ThreadId → Bool) (sys sys' : System) : Prop :=
  ∃ m, sys.move? eligible m = some sys'

/-- One system comes from another by moves under the same rule of eligibility. -/
abbrev PathUnder (eligible : ThreadId → Bool) : System → System → Prop :=
  Relation.ReflTransGen (StepUnder eligible)

/-- A system can be reached under one rule of eligibility from one with the configuration `c` that
nobody used yet. -/
def ReachableUnder (c : Config) (eligible : ThreadId → Bool) (sys : System) : Prop :=
  ∃ start, initial c = .ok start ∧ PathUnder eligible start sys

/-- A step under one predicate is a step. -/
lemma StepUnder.step {eligible : ThreadId → Bool} {sys sys' : System}
    (h : StepUnder eligible sys sys') : Step sys sys' := ⟨eligible, h⟩

/-- A path under one predicate is a path. -/
lemma PathUnder.path {eligible : ThreadId → Bool} {sys sys' : System}
    (h : PathUnder eligible sys sys') : Path sys sys' :=
  Relation.ReflTransGen.mono (fun _ _ => StepUnder.step) _ _ h

/-- What is reachable under one predicate is reachable. -/
lemma ReachableUnder.reachable {c : Config} {eligible : ThreadId → Bool} {sys : System}
    (h : ReachableUnder c eligible sys) : Reachable c sys := by
  obtain ⟨start, hstart, hpath⟩ := h
  exact ⟨start, hstart, hpath.path⟩

/-! ### Given moves -/

/-- The system after some moves under one rule of eligibility, if they are possible. -/
def follow? (sys : System) (eligible : ThreadId → Bool) : List Move → Option System
  | [] => some sys
  | m :: ms => (sys.move? eligible m).bind fun sys => sys.follow? eligible ms

/-- The system after some moves, from a start that nobody used, if they are possible. -/
def run? (c : Config) (eligible : ThreadId → Bool) (ms : List Move) : Option System :=
  (initial c).toOption.bind fun sys => sys.follow? eligible ms

/-- Moves that are followed under one predicate are a path under it. -/
lemma pathUnder_of_follow? {eligible : ThreadId → Bool} {ms : List Move} {sys sys' : System}
    (h : sys.follow? eligible ms = some sys') : PathUnder eligible sys sys' := by
  induction ms generalizing sys with
  | nil =>
    cases h
    exact .refl
  | cons m ms ih =>
    obtain ⟨next, hm, hms⟩ := Option.bind_eq_some_iff.mp h
    exact .head ⟨m, hm⟩ (ih hms)

/-- Moves that are followed are a path. -/
lemma path_of_follow? {eligible : ThreadId → Bool} {ms : List Move} {sys sys' : System}
    (h : sys.follow? eligible ms = some sys') : Path sys sys' := (pathUnder_of_follow? h).path

/-- What moves lead to under one predicate is reachable under it. -/
lemma reachableUnder_of_run? {c : Config} {eligible : ThreadId → Bool} {ms : List Move}
    {sys : System} (h : run? c eligible ms = some sys) : ReachableUnder c eligible sys := by
  obtain ⟨start, hstart, hms⟩ := Option.bind_eq_some_iff.mp h
  refine ⟨start, ?_, pathUnder_of_follow? hms⟩
  cases hi : initial c with
  | error e => simp [hi, Except.toOption] at hstart
  | ok s => simpa [hi, Except.toOption] using hstart

/-- What moves lead to is reachable. -/
lemma reachable_of_run? {c : Config} {eligible : ThreadId → Bool} {ms : List Move} {sys : System}
    (h : run? c eligible ms = some sys) : Reachable c sys := (reachableUnder_of_run? h).reachable

end System

/-! ### The first stretch of an operation -/

/-- What the call of an operation can do at once. -/
inductive Opening (s : State) : Agent → Operation → Outcome → Prop
  /-- A submission begins. -/
  | submit (a : Agent) (w : Work) :
    Opening s a (.submit w) (.goto s (.submission (.enrol w .answer)))
  /-- A submission that fills the round begins. -/
  | fill (a : Agent) (w : Work) :
    Opening s a (.fill w) (.goto s (.submission (.enrol w .count)))
  /-- The owner of a lock is told. -/
  | owner (a : Agent) (l : LockId) (k : LockState) (hk : s.lock? l = some k) :
    Opening s a (.owner l) (.reply s (.owner k.owner))
  /-- A thread is taken out of the queue that it is linked to. -/
  | unlinked (a : Agent) (l : LockId) (t : ThreadId) (hlink : s.linkOf? t = some l) :
    Opening s a (.unqueue l t) (.reply (s.detach [t]) .done)
  /-- A thread is taken out of a queue that it is not linked to. -/
  | forgotten (a : Agent) (l : LockId) (t : ThreadId) (k : LockState) (hk : s.lock? l = some k)
    (hlink : s.linkOf? t ≠ some l) : Opening s a (.unqueue l t) (.reply (s.forget l t) .done)
  /-- An ordered step begins. -/
  | turn (t : ThreadId) : Opening s (.unit t) .turn (.goto s (.thread t (.enter .turn)))
  /-- A request for a lock begins. -/
  | lock (t : ThreadId) (l : LockId) (k : LockState) (hk : s.lock? l = some k)
    (howner : k.owner ≠ some t) :
    Opening s (.unit t) (.lock l) (.goto s (.thread t (.enter (.lock l))))
  /-- A thread asks for a lock that it owns. -/
  | relock (t : ThreadId) (l : LockId) (k : LockState) (hk : s.lock? l = some k)
    (howner : k.owner = some t) :
    Opening s (.unit t) (.lock l) (.reply s (.panicked (.reacquired t l)))
  /-- A thread releases a lock that it does not own. -/
  | notOwner (t : ThreadId) (l : LockId) (k : LockState) (hk : s.lock? l = some k)
    (howner : k.owner ≠ some t) :
    Opening s (.unit t) (.unlock l) (.reply s (.refused (.notOwner l t k.owner)))
  /-- A lock that nobody waits for is released. -/
  | released (t : ThreadId) (l : LockId) (k : LockState) (hk : s.lock? l = some k)
    (howner : k.owner = some t) (hqueue : k.queue = []) :
    Opening s (.unit t) (.unlock l) (.reply (s.release l) .done)
  /-- A lock is handed to the first thread that waits for it. -/
  | handedOver (t : ThreadId) (l : LockId) (k : LockState) (next : ThreadId)
    (rest : List ThreadId) (hk : s.lock? l = some k) (howner : k.owner = some t)
    (hqueue : k.queue = next :: rest) :
    Opening s (.unit t) (.unlock l) (.reply (s.handOver l next) .done)
  /-- A request for a configuration begins. -/
  | reconfigure (t : ThreadId) (r : Request) :
    Opening s (.unit t) (.reconfigure r) (.goto s (.thread t (.enter (.reconfigure r))))
  /-- A retirement begins. -/
  | retire (t : ThreadId) : Opening s (.unit t) .retire (.goto s (.thread t .enterRetirement))

/-- Every operation that may be called, on locks that exist, begins in one of the listed ways. -/
lemma Operation.opening_of_start? {s : State} (h : s.Sound) {a : Agent} {op : Operation}
    {o : Outcome} (hlocks : ∀ l ∈ op.locks, (s.lock? l).isSome) (ho : op.start? s a = some o) :
    Opening s a op o := by
  have hlock : ∀ l, op.locks = [l] → ∃ k, s.lock? l = some k := fun l hl =>
    Option.isSome_iff_exists.mp (hlocks l (by simp [hl]))
  cases op with
  | submit w => cases a <;> cases ho <;> exact .submit _ w
  | fill w => cases a <;> cases ho <;> exact .fill _ w
  | owner l =>
    obtain ⟨k, hk⟩ := hlock l rfl
    have hstart : (Operation.owner l).start? s a = some (.reply s (.owner k.owner)) := by
      cases a <;> simp [start?, State.withLock, hk]
    cases hstart.symm.trans ho
    exact .owner a l k hk
  | unqueue l t =>
    obtain ⟨k, hk⟩ := hlock l rfl
    have hstart : (Operation.unqueue l t).start? s a = some (s.unqueue l t) := by cases a <;> rfl
    cases hstart.symm.trans ho
    by_cases hlink : s.linkOf? t = some l
    · rw [State.unqueue, if_pos hlink]
      exact .unlinked a l t hlink
    · rw [State.unqueue, if_neg hlink, State.withLock, hk]
      exact .forgotten a l t k hk hlink
  | turn =>
    cases a <;> cases ho
    exact .turn _
  | lock l =>
    obtain ⟨k, hk⟩ := hlock l rfl
    cases a <;> cases ho
    next t =>
      simp only [State.lock, State.withLock, hk]
      split
      · next howner => exact .relock t l k hk howner
      · next howner => exact .lock t l k hk howner
  | unlock l =>
    obtain ⟨k, hk⟩ := hlock l rfl
    cases a <;> cases ho
    next t =>
      simp only [State.unlock, State.withLock, hk]
      by_cases howner : k.owner = some t
      · cases hq : k.queue with
        | nil =>
          simp only [howner, ne_eq, not_true, if_false]
          exact .released t l k hk howner hq
        | cons next rest =>
          obtain ⟨r, hr, -⟩ := State.linkOf?_eq_some_iff.mp (h.queues.linkOf?_of_head hk hq)
          have hrecorded : ∀ u ∈ [next], (s.record? u).isSome := by simp [hr]
          simp only [howner, ne_eq, not_true, if_false, State.requiring_eq hrecorded]
          exact .handedOver t l k next rest hk howner hq
      · simp only [ne_eq, howner, not_false_eq_true, if_true]
        exact .notOwner t l k hk howner
  | reconfigure r =>
    cases a <;> cases ho
    exact .reconfigure _ r
  | retire =>
    cases a <;> cases ho
    exact .retire _

/-! ### The stretches of a submitter -/

/-- What can happen at a place of a submitter. -/
inductive Intake (c : Config) (s : State) : Submission → Outcome → Prop
  /-- The list is too long, so the new thread waits. -/
  | blocked (w : Work) (k : AfterListing) (hfull : s.isFull c = true) :
    Intake c s (.enrol w k) (.goto (s.enrol.awaitAdmission s.nextThread)
      (.submission (.awaitAdmission s.nextThread w k)))
  /-- The new thread need not wait. -/
  | passed (w : Work) (k : AfterListing) (hfull : s.isFull c = false) :
    Intake c s (.enrol w k) (.goto s.enrol (.submission (.list s.nextThread w k)))
  /-- Nobody let the thread through. -/
  | sleepForAdmission (t : ThreadId) (w : Work) (k : AfterListing) (r : ThreadRecord)
    (hr : s.record? t = some r) (hadmitted : r.admitted = false) :
    Intake c s (.awaitAdmission t w k) .sleep
  /-- The thread was let through. -/
  | admitted (t : ThreadId) (w : Work) (k : AfterListing) (r : ThreadRecord)
    (hr : s.record? t = some r) (hadmitted : r.admitted = true) :
    Intake c s (.awaitAdmission t w k) (.goto s (.submission (.list t w k)))
  /-- The thread is listed, and that is all. -/
  | listed (t : ThreadId) (w : Work) (hnames : c.namesWorkers = true) :
    Intake c s (.list t w .answer) (.reply (s.list t w) (.thread t))
  /-- The thread is listed, and the primaries that the round lacks will be counted. -/
  | listedToCount (t : ThreadId) (w : Work) (hnames : c.namesWorkers = true) :
    Intake c s (.list t w .count) (.pause (s.list t w) (.submission (.count t)))
  /-- The thread is listed, and more will follow. -/
  | listedWithMore (t : ThreadId) (w : Work) (n : Nat) (first : ThreadId)
    (hnames : c.namesWorkers = true) :
    Intake c s (.list t w (.more (n + 1) first))
      (.pause (s.list t w) (.submission (.enrol .filler (.more n first))))
  /-- The thread is listed as the last of several. -/
  | listedLast (t : ThreadId) (w : Work) (first : ThreadId) (hnames : c.namesWorkers = true) :
    Intake c s (.list t w (.more 0 first)) (.reply (s.list t w) (.thread first))
  /-- The worker of the thread cannot be named. -/
  | unnamed (t : ThreadId) (w : Work) (k : AfterListing) (hnames : c.namesWorkers = false) :
    Intake c s (.list t w k) (.reply s (.panicked .workerName))
  /-- The round lacks primaries. -/
  | lacking (first : ThreadId) (n : Nat) (hn : s.missingPrimaries = n + 1) :
    Intake c s (.count first) (.pause s (.submission (.enrol .filler (.more n first))))
  /-- The round lacks nobody. -/
  | sufficient (first : ThreadId) (hn : s.missingPrimaries = 0) :
    Intake c s (.count first) (.reply s (.thread first))

/-- The thread that a submitter brings, once it has a number. -/
def Submission.thread? : Submission → Option ThreadId
  | enrol .. | count _ => none
  | awaitAdmission t _ _ | list t _ _ => some t

/-- Every outcome of the place of a submitter is one of the listed possibilities, as long as the
state is sound and the thread that the submitter brings has a record. -/
lemma Submission.intake_step {c : Config} {s : State} (h : s.Sound) {p : Submission}
    (hp : ∀ t, p.thread? = some t → (s.record? t).isSome) : Intake c s p (p.step c s) := by
  cases p with
  | enrol w k =>
    have hfull : s.enrol.isFull c = s.isFull c := rfl
    simp only [step, hfull]
    split
    · next hb => exact .blocked w k hb
    · next hb => exact .passed w k (by simpa using hb)
  | awaitAdmission t w k =>
    obtain ⟨r, hr⟩ := Option.isSome_iff_exists.mp (hp t rfl)
    simp only [step, State.withRecord, hr]
    split
    · next ha => exact .admitted t w k r hr ha
    · next ha => exact .sleepForAdmission t w k r hr (by simpa using ha)
  | list t w k =>
    have hrecorded : ∀ u ∈ [t], (s.record? u).isSome := by simpa using hp t rfl
    simp only [step, State.requiring_eq hrecorded]
    split
    · next hn =>
      cases k with
      | answer => exact .listed t w hn
      | count => exact .listedToCount t w hn
      | more left first =>
        cases left with
        | zero => exact .listedLast t w first hn
        | succ n => exact .listedWithMore t w n first hn
    · next hn => exact .unnamed t w k (by simpa using hn)
  | count first =>
    simp only [step, State.requiring_eq fun t ht => h.roster.isSome_of_mem_list ht]
    cases hn : s.missingPrimaries with
    | zero => exact .sufficient first hn
    | succ n => exact .lacking first n hn

/-! ### Moves -/

namespace System

/-- The ways in which a sound system can make a move under a rule of eligibility. -/
inductive Transition (eligible : ThreadId → Bool) (sys : System) : Move → System → Prop
  /-- An operation is called. -/
  | call (a : Agent) (op : Operation) (o : Outcome) (hinside : sys.inside = none)
    (hidle : sys.calls.get? a = none) (halive : sys.isAlive a = true)
    (hlocks : ∀ l ∈ op.locks, (sys.state.lock? l).isSome) (ho : Opening sys.state a op o) :
    Transition eligible sys (.call a op) (sys.apply a op o)
  /-- A thread goes one place further. -/
  | stretch (t : ThreadId) (op : Operation) (ph : Phase) (o : Outcome)
    (hinside : sys.inside = some (.unit t))
    (hcall : sys.calls.get? (.unit t) = some ⟨op, .thread t ph⟩) (hop : op = ph.operation)
    (ho : Stretch eligible sys.state t ph o) :
    Transition eligible sys .advance (sys.apply (.unit t) op o)
  /-- A submitter goes one place further. -/
  | intake (a : Agent) (op : Operation) (p : Submission) (o : Outcome)
    (hinside : sys.inside = some a) (hcall : sys.calls.get? a = some ⟨op, .submission p⟩)
    (ho : Intake sys.config sys.state p o) : Transition eligible sys .advance (sys.apply a op o)
  /-- Somebody enters the critical section. -/
  | enter (a : Agent) (call : Call) (hinside : sys.inside = none)
    (hcall : sys.calls.get? a = some call) :
    Transition eligible sys (.enter a) { sys with inside := some a }
  /-- A lock is created. -/
  | newLock (hinside : sys.inside = none) :
    Transition eligible sys .newLock { sys with state := sys.state.registerLock }
  /-- A lock is dropped that no operation uses. -/
  | dropLock (l : LockId) (hinside : sys.inside = none) (hl : (sys.state.lock? l).isSome)
    (hunused : ∀ a call, sys.calls.get? a = some call → l ∉ call.operation.locks) :
    Transition eligible sys (.dropLock l) { sys with state := sys.state.dropLock l }

end System

end RoundScheduler
