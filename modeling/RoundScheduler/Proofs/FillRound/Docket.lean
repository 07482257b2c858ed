import Mathlib.Data.List.Induction
import RoundScheduler.Proofs.Determinism.Runs
import RoundScheduler.Proofs.LifeCycle

/-!
# Dockets

A docket fixes what one client asks for, one thing after the other: to submit a unit, or to submit a
unit and to fill the round. How many units without work that adds depends on how many primaries the
round lacks when the client counts them. If these numbers are noted down as they come, everything
else about the threads is known: which of them does which work, and where the client stands.
-/

namespace RoundScheduler

open State

/-! ### What is fixed about a run -/

/-- What the client asks for at once. -/
structure Errand where
  /-- Whether the round is to be filled. -/
  fills : Bool := false
  /-- What the unit does. -/
  routine : Routine

/-- What is fixed about a run. -/
structure Docket where
  /-- The configuration. -/
  config : Config
  /-- Who may become a primary. -/
  eligible : ThreadId → Bool
  /-- The number of locks. -/
  locks : Nat
  /-- What the client asks for, in this order. -/
  errands : List Errand

/-- What is left of the routine of a thread after some returns, the latest first. -/
def Routine.afterReturns (t : ThreadId) (r : Routine) (returns : List Return) : Routine :=
  returns.foldr (fun ret left => if ret.agent = .unit t then left.after ret.reply.verdict else left)
    r

/-- The returns of others do not count. -/
lemma Routine.afterReturns_append_of_ne {t : ThreadId} {r : Routine} {new returns : List Return}
    (hnew : ∀ ret ∈ new, ret.agent ≠ .unit t) :
    r.afterReturns t (new ++ returns) = r.afterReturns t returns := by
  induction new with
  | nil => rfl
  | cons ret new ih =>
    obtain ⟨hret, hnew⟩ := List.forall_mem_cons.mp hnew
    exact (if_neg hret).trans (ih hnew)

namespace Docket

variable (d : Docket)

/-- Whether an errand fills the round. -/
def fills (i : Nat) : Bool := d.errands[i]?.any (·.fills)

/-- The operation of an errand. -/
def operation (i : Nat) : Operation :=
  if d.fills i then .fill (.scripted i) else .submit (.scripted i)

/-- What the client does once the unit of an errand is listed. -/
def afterUnit (i : Nat) : AfterListing := if d.fills i then .count else .answer

/-- What a thread does for its work; whoever only fills a round does nothing. -/
def routine : Work → Routine
  | .scripted i => d.errands[i]?.elim [] (·.routine)
  | _ => []

/-- What is left to do for a thread: the routine of the work that it was listed for, without the
instructions that ended. -/
def todo (sys : System) (t : ThreadId) : Routine :=
  Routine.afterReturns t ((sys.state.listings.lookup t).elim [] d.routine) sys.returns

/-- What somebody calls next: threads follow their routines, and one client runs the errands. -/
def next? (sys : System) : Agent → Option Operation
  | .unit t => some (d.todo sys t).operation
  | .client 0 =>
    if Agenda.submissions sys.returns < d.errands.length then
      some (d.operation (Agenda.submissions sys.returns))
    else none
  | .client _ => none

/-- Whether a move follows the docket; locks are neither created nor dropped on the way. -/
def permits (sys : System) : Move → Bool
  | .call a op => d.next? sys a = some op
  | .advance | .enter _ => true
  | .newLock | .dropLock _ => false

/-- One system comes from another by a move that follows the docket. -/
def Step (sys sys' : System) : Prop :=
  ∃ m, d.permits sys m = true ∧ sys.move? d.eligible m = some sys'

/-- The ways in which a system follows the docket. -/
inductive Going (sys : System) : System → Prop
  /-- A thread calls the operation that is next in its routine. -/
  | call (t : ThreadId) (op : Operation) (o : Outcome) (hop : op = (d.todo sys t).operation)
    (hinside : sys.inside = none) (hidle : sys.calls.get? (.unit t) = none)
    (halive : sys.isAlive (.unit t) = true) (hlocks : ∀ l ∈ op.locks, (sys.state.lock? l).isSome)
    (ho : op.start? sys.state (.unit t) = some o) : Going sys (sys.apply (.unit t) op o)
  /-- A thread goes one place further. -/
  | stretch (t : ThreadId) (op : Operation) (ph : Phase) (hinside : sys.inside = some (.unit t))
    (hcall : sys.calls.get? (.unit t) = some ⟨op, .thread t ph⟩) :
    Going sys (sys.apply (.unit t) op (ph.step d.eligible t sys.state))
  /-- The client begins an errand. -/
  | errand (i : Nat) (hi : Agenda.submissions sys.returns = i) (hinside : sys.inside = none)
    (hidle : sys.calls.get? (.client 0) = none) :
    Going sys (sys.apply (.client 0) (d.operation i)
      (.goto sys.state (.submission (.enrol (.scripted i) (d.afterUnit i)))))
  /-- The client goes one place further. -/
  | intake (op : Operation) (p : Submission) (hinside : sys.inside = some (.client 0))
    (hcall : sys.calls.get? (.client 0) = some ⟨op, .submission p⟩) :
    Going sys (sys.apply (.client 0) op (p.step sys.config sys.state))
  /-- Somebody enters the critical section. -/
  | enter (a : Agent) (hinside : sys.inside = none) (hcall : (sys.calls.get? a).isSome) :
    Going sys { sys with inside := some a }

/-- The system with all its locks, of which nobody made use yet. -/
def start? : Option System := System.run? d.config d.eligible (List.replicate d.locks .newLock)

end Docket

/-- What the client finds when it counts the primaries that the round lacks. -/
structure Count where
  /-- The errand for which it counts. -/
  errand : Nat
  /-- The round. -/
  round : Nat
  /-- How many primaries the round lacks. -/
  missing : Nat
  deriving DecidableEq

/-- What the client is about to find, if it is about to count. -/
def System.count? (sys : System) : Option Count :=
  match sys.inside, sys.calls.get? (.client 0) with
  | some (.client 0), some ⟨.fill (.scripted i), .submission (.count _)⟩ =>
    some ⟨i, sys.state.round, sys.state.missingPrimaries⟩
  | _, _ => none

/-- A system that follows the docket, with what the client found when it counted, the latest
first. -/
inductive Docket.Counted (d : Docket) : System → List Count → Prop
  /-- Nothing happened yet. -/
  | start {sys : System} (h : d.start? = some sys) : Counted d sys []
  /-- One more step. -/
  | step {sys sys' : System} {counts : List Count} (h : Counted d sys counts)
    (hstep : d.Step sys sys') : Counted d sys' (sys.count?.toList ++ counts)

/-- The system after some moves that follow the docket, with what the client found when it counted,
if they are possible. -/
def Docket.follow? (d : Docket) (sys : System) (counts : List Count) :
    List Move → Option (System × List Count)
  | [] => some (sys, counts)
  | m :: ms =>
    if d.permits sys m then
      (sys.move? d.eligible m).bind fun next => d.follow? next (sys.count?.toList ++ counts) ms
    else none

/-- The system after some moves that follow the docket from its start, if they are possible. -/
def Docket.run? (d : Docket) (ms : List Move) : Option (System × List Count) :=
  d.start?.bind fun start => d.follow? start [] ms

/-- What moves lead to from a system with counts has counts. -/
lemma Docket.Counted.follow? {d : Docket} {ms : List Move} {sys last : System}
    {counts found : List Count} (h : d.Counted sys counts)
    (hms : d.follow? sys counts ms = some (last, found)) : d.Counted last found := by
  induction ms generalizing sys counts with
  | nil =>
    cases hms
    exact h
  | cons m ms ih =>
    obtain ⟨hpermits, hms⟩ := Option.ite_none_right_eq_some.mp hms
    obtain ⟨next, hm, hms⟩ := Option.bind_eq_some_iff.mp hms
    exact ih (h.step ⟨m, hpermits, hm⟩) hms

/-- What moves lead to from the start has counts. -/
lemma Docket.counted_of_run? {d : Docket} {ms : List Move} {sys : System} {counts : List Count}
    (h : d.run? ms = some (sys, counts)) : d.Counted sys counts := by
  obtain ⟨start, hstart, hms⟩ := Option.bind_eq_some_iff.mp h
  exact (Counted.start hstart).follow? hms

/-- How many primaries were missing when the client counted for an errand, if it did. -/
def missingFor? (counts : List Count) (i : Nat) : Option Nat :=
  (counts.find? (·.errand = i)).map (·.missing)

/-- Whether the submitter is about to bring a thread, and for which work. -/
def Submission.work? : Submission → Option Work
  | enrol w _ | awaitAdmission _ w _ | list _ w _ => some w
  | count _ => none

namespace Docket

variable {d : Docket} {sys sys' : System} {t : ThreadId} {i j n : Nat} {counts : List Count}
  {ws : List Work} {w : Work} {k : AfterListing}

/-! ### The work of the threads -/

/-- How many units without work an errand adds, as far as it is known. -/
def extra (d : Docket) (counts : List Count) (i : Nat) : Nat :=
  if d.fills i then (missingFor? counts i).getD 0 else 0

/-- The work of all threads that are listed before an errand. -/
def roll (d : Docket) (counts : List Count) (i : Nat) : List Work :=
  (List.range i).flatMap fun j => .scripted j :: List.replicate (d.extra counts j) .filler

/-- The next errand brings its unit, and behind it what its count found missing. -/
lemma roll_succ : d.roll counts (i + 1) =
    d.roll counts i ++ .scripted i :: List.replicate (d.extra counts i) .filler := by
  simp [roll, List.range_succ]

/-- The roll depends on what was counted for earlier errands only. -/
lemma roll_congr {counts' : List Count}
    (h : ∀ j < i, d.fills j = true → missingFor? counts' j = missingFor? counts j) :
    d.roll counts' i = d.roll counts i := by
  induction i with
  | zero => rfl
  | succ i ih =>
    have hextra : d.extra counts' i = d.extra counts i := by
      unfold extra
      split
      · next hfills => rw [h i (Nat.lt_succ_self i) hfills]
      · rfl
    rw [roll_succ, roll_succ, ih fun j hj => h j (Nat.lt_succ_of_lt hj), hextra]

/-- Threads are numbered as they are listed. -/
def enlist (ws : List Work) : List (ThreadId × Work) := ws.mapIdx fun k w => (⟨k⟩, w)

/-- The last unit has the last number. -/
lemma enlist_concat : enlist (ws ++ [w]) = enlist ws ++ [(⟨ws.length⟩, w)] :=
  List.mapIdx_concat

/-- The work of a thread is found under its number. -/
lemma lookup_enlist (n : Nat) : (enlist ws).lookup ⟨n⟩ = ws[n]? := by
  induction ws using List.reverseRecOn with
  | nil => rfl
  | append_singleton ws w ih =>
    rw [enlist_concat, List.lookup_append, ih]
    have hlast : List.lookup (⟨n⟩ : ThreadId) [(⟨ws.length⟩, w)] =
        if n = ws.length then some w else none := by
      have hbeq : ((⟨n⟩ : ThreadId) == ⟨ws.length⟩) = decide (n = ws.length) := by
        simp [BEq.beq]
      rw [List.lookup_cons, hbeq]
      by_cases hn : n = ws.length <;> simp [hn]
    rw [hlast]
    rcases Nat.lt_trichotomy n ws.length with hn | hn | hn
    · simp [List.getElem?_append_left hn, List.getElem?_eq_getElem hn]
    · simp [hn]
    · rw [if_neg (Nat.ne_of_gt hn), List.getElem?_eq_none (Nat.le_of_lt hn),
        List.getElem?_eq_none (by simp; omega)]
      rfl

/-- More work is listed behind the rest. -/
lemma enlist_mono {ws' : List Work} (h : ws <+: ws') : enlist ws <+: enlist ws' := by
  obtain ⟨rest, rfl⟩ := h
  rw [enlist, enlist, List.mapIdx_append]
  exact List.prefix_append _ _

/-- The work of the listed threads is what was to be listed. -/
lemma map_snd_enlist : (enlist ws).map Prod.snd = ws := by
  apply List.ext_getElem <;> simp [enlist]

/-! ### Where the client stands -/

/-- The work that the client brings next for an errand, and what it does after that. -/
inductive Owes (d : Docket) (counts : List Count) (i : Nat) :
    List Work → Work → AfterListing → Prop
  /-- The unit of an errand that fills no round. -/
  | only (hfills : d.fills i = false) : Owes d counts i (d.roll counts i) (.scripted i) .answer
  /-- The unit of an errand that fills the round. -/
  | first (hfills : d.fills i = true) : Owes d counts i (d.roll counts i) (.scripted i) .count
  /-- One of the units that fill the round. -/
  | filler (m left : Nat) (hfills : d.fills i = true)
    (hcounted : missingFor? counts i = some (m + left + 1)) :
    Owes d counts i (d.roll counts i ++ .scripted i :: List.replicate m .filler) .filler
      (.more left ⟨(d.roll counts i).length⟩)

/-- Where the client stands for an errand, by the work that was listed and the next number. -/
inductive Serving (d : Docket) (counts : List Count) (i : Nat) :
    List Work → Nat → Option Call → Prop
  /-- It is about to go on that errand. -/
  | outside : Serving d counts i (d.roll counts i) (d.roll counts i).length none
  /-- It is about to take a number. -/
  | enrol (ws : List Work) (w : Work) (k : AfterListing) (howes : Owes d counts i ws w k) :
    Serving d counts i ws ws.length (some ⟨d.operation i, .submission (.enrol w k)⟩)
  /-- It waits for admission. -/
  | wait (ws : List Work) (w : Work) (k : AfterListing) (howes : Owes d counts i ws w k) :
    Serving d counts i ws (ws.length + 1)
      (some ⟨d.operation i, .submission (.awaitAdmission ⟨ws.length⟩ w k)⟩)
  /-- It is about to list the thread. -/
  | list (ws : List Work) (w : Work) (k : AfterListing) (howes : Owes d counts i ws w k) :
    Serving d counts i ws (ws.length + 1)
      (some ⟨d.operation i, .submission (.list ⟨ws.length⟩ w k)⟩)
  /-- It is about to count the primaries that the round lacks. -/
  | count (hfills : d.fills i = true) :
    Serving d counts i (d.roll counts i ++ [.scripted i])
      (d.roll counts i ++ [Work.scripted i]).length
      (some ⟨d.operation i, .submission (.count ⟨(d.roll counts i).length⟩)⟩)

/-- An errand that fills a round is a fill. -/
lemma operation_of_fills (hfills : d.fills i = true) : d.operation i = .fill (.scripted i) :=
  if_pos hfills

/-- Different errands have different operations. -/
lemma operation_injective (h : d.operation i = d.operation j) : i = j := by
  unfold operation at h
  split at h <;> split at h <;> cases h <;> rfl

/-- Every errand begins with a new thread for its unit. -/
lemma start?_operation {s : State} {a : Agent} : (d.operation i).start? s a =
    some (.goto s (.submission (.enrol (.scripted i) (d.afterUnit i)))) := by
  unfold operation afterUnit
  split <;> rfl

/-- The numbers that were counted explain the threads and where the client stands. -/
structure Serves (d : Docket) (counts : List Count) (sys : System) : Prop where
  serving : ∃ ws, sys.state.listings = enlist ws ∧
    Serving d counts (Agenda.submissions sys.returns) ws sys.state.nextThread.raw
      (sys.calls.get? (.client 0))
  known : ∀ j < Agenda.submissions sys.returns, d.fills j = true → (missingFor? counts j).isSome
  /-- The client was told the number of the unit of its errand. -/
  answers : ∀ r ∈ sys.returns, ∀ t, r.agent = .client 0 → r.reply = .thread t →
    ∃ j < Agenda.submissions sys.returns, r.operation = d.operation j ∧
      t = ⟨(d.roll counts j).length⟩
  /-- There are no other clients. -/
  clients : ∀ n, sys.calls.get? (.client (n + 1)) = none
  /-- Threads that call operations were listed, and they submit nothing. -/
  units : ∀ t call, sys.calls.get? (.unit t) = some call →
    t.raw < sys.state.listings.length ∧ call.operation.submits = false
  /-- Threads that were answered were listed. -/
  quiet : ∀ r ∈ sys.returns, ∀ t, r.agent = .unit t → t.raw < sys.state.listings.length

namespace Serves

variable {op : Operation} {o : Outcome}

/-- Nobody counts while a thread is inside the critical section, or nobody is. -/
lemma count?_eq_none (h : sys.inside ≠ some (.client 0)) : sys.count? = none := by
  unfold System.count?
  split
  · next hinside _ => exact absurd hinside h
  · rfl

/-- What a thread does leaves the client alone. -/
lemma apply_unit {v : Option ThreadId} (h : Serves d counts sys)
    (hc : Change sys.state v (o.state sys.state)) (hlisted : t.raw < sys.state.listings.length)
    (hsubmits : op.submits = false) : Serves d counts (sys.apply (.unit t) op o) := by
  have hlistings : (sys.apply (.unit t) op o).state.listings = sys.state.listings := by
    rw [System.state_apply, hc.listings_eq]
  have hcount : Agenda.submissions (sys.apply (.unit t) op o).returns =
      Agenda.submissions sys.returns := by
    rw [System.returns_apply, Shadow.submissions_append_of_unit]
  have hreturns : ∀ r ∈ (sys.apply (.unit t) op o).returns, r ∈ sys.returns ∨ r.agent = .unit t :=
    fun r hr => by
      rw [System.returns_apply, List.mem_append] at hr
      refine hr.symm.imp_right fun hr => ?_
      cases o with
      | reply s' reply =>
        cases List.mem_singleton.mp hr
        rfl
      | _ => cases hr
  refine ⟨?_, ?_, fun r hr u hagent hreply => ?_, fun n => ?_, fun u call hcall => ?_,
    fun r hr u hagent => ?_⟩
  · obtain ⟨ws, hws, hserving⟩ := h.serving
    refine ⟨ws, hlistings.trans hws, ?_⟩
    rwa [hcount, System.state_apply, hc.nextThread_eq, System.get?_calls_apply, if_neg (by simp)]
  · rw [hcount]
    exact h.known
  · rw [hcount]
    rcases hreturns r hr with hr | hunit
    · exact h.answers r hr u hagent hreply
    · cases hagent.symm.trans hunit
  · rw [System.get?_calls_apply, if_neg (by simp)]
    exact h.clients n
  · rw [hlistings]
    rw [System.get?_calls_apply] at hcall
    split at hcall
    · next hut =>
      cases hut
      refine ⟨hlisted, ?_⟩
      cases o with
      | sleep => exact (h.units _ call hcall).2
      | goto s' point | pause s' point =>
        cases hcall
        exact hsubmits
      | reply s' r => cases hcall
    · exact h.units u call hcall
  · rw [hlistings]
    rcases hreturns r hr with hr | hunit
    · exact h.quiet r hr u hagent
    · cases hagent.symm.trans hunit
      exact hlisted

/-- What the client does leaves the threads alone. -/
lemma apply_client {counts' : List Count} (h : Serves d counts sys)
    (hlistings : sys.state.listings <+: (o.state sys.state).listings)
    (hserving : ∃ ws, (o.state sys.state).listings = enlist ws ∧
      Serving d counts' (Agenda.submissions (o.returns (.client 0) op ++ sys.returns)) ws
        (o.state sys.state).nextThread.raw (o.call? (sys.calls.get? (.client 0)) op))
    (hcounted : ∀ j < Agenda.submissions sys.returns, missingFor? counts' j = missingFor? counts j)
    (hknown : ∀ j < Agenda.submissions (o.returns (.client 0) op ++ sys.returns),
      ¬ j < Agenda.submissions sys.returns → d.fills j = true → (missingFor? counts' j).isSome)
    (hanswer : ∀ r ∈ o.returns (.client 0) op, ∀ t, r.reply = .thread t →
      ∃ j < Agenda.submissions (o.returns (.client 0) op ++ sys.returns),
        r.operation = d.operation j ∧ t = ⟨(d.roll counts' j).length⟩) :
    Serves d counts' (sys.apply (.client 0) op o) := by
  have hmore : Agenda.submissions sys.returns ≤
      Agenda.submissions (o.returns (.client 0) op ++ sys.returns) := by
    rw [Agenda.submissions, Agenda.submissions, List.countP_append]
    exact Nat.le_add_left _ _
  have hagent : ∀ r ∈ o.returns (.client 0) op, r.agent = .client 0 := fun r hr => by
    cases o with
    | reply s' reply =>
      cases List.mem_singleton.mp hr
      rfl
    | _ => cases hr
  refine ⟨?_, fun j hj hfills => ?_, fun r hr t hclient hreply => ?_, fun n => ?_,
    fun t call hcall => ?_, fun r hr t hunit => ?_⟩
  · rw [System.returns_apply, System.state_apply, System.get?_calls_apply, if_pos rfl]
    exact hserving
  · rw [System.returns_apply] at hj
    by_cases hbefore : j < Agenda.submissions sys.returns
    · rw [hcounted j hbefore]
      exact h.known j hbefore hfills
    · exact hknown j hj hbefore hfills
  · rw [System.returns_apply] at hr ⊢
    rcases List.mem_append.mp hr with hr | hr
    · exact hanswer r hr t hreply
    · obtain ⟨j, hj, hop, ht⟩ := h.answers r hr t hclient hreply
      have hroll : d.roll counts' j = d.roll counts j :=
        roll_congr fun m hm _ => hcounted m (Nat.lt_trans hm hj)
      exact ⟨j, Nat.lt_of_lt_of_le hj hmore, hop, hroll ▸ ht⟩
  · rw [System.get?_calls_apply, if_neg (by simp)]
    exact h.clients n
  · rw [System.get?_calls_apply, if_neg (by simp)] at hcall
    rw [System.state_apply]
    exact (h.units t call hcall).imp_left (Nat.lt_of_lt_of_le · hlistings.length_le)
  · rw [System.returns_apply] at hr
    rw [System.state_apply]
    rcases List.mem_append.mp hr with hr | hr
    · cases (hagent r hr).symm.trans hunit
    · exact Nat.lt_of_lt_of_le (h.quiet r hr t hunit) hlistings.length_le

/-- The client goes on within its errand. -/
lemma client_goto (h : Serves d counts sys) {s' : State} {point : Point}
    (ho : o = .goto s' point ∨ o = .pause s' point) {counts' : List Count}
    (hcounted : ∀ j < Agenda.submissions sys.returns, missingFor? counts' j = missingFor? counts j)
    (hserving : ∃ ws, s'.listings = enlist ws ∧
      Serving d counts' (Agenda.submissions sys.returns) ws s'.nextThread.raw (some ⟨op, point⟩))
    (hlistings : sys.state.listings <+: s'.listings) :
    Serves d counts' (sys.apply (.client 0) op o) := by
  rcases ho with rfl | rfl <;>
    exact h.apply_client hlistings hserving hcounted
      (fun j hj hnot => absurd hj hnot) (by simp [Outcome.returns])

/-- The client returns from its errand. -/
lemma client_reply (h : Serves d counts sys) {s' : State}
    {counts' : List Count}
    (hi : Agenda.submissions sys.returns = i)
    (hcounted : ∀ j < i, missingFor? counts' j = missingFor? counts j)
    (hlistings : sys.state.listings <+: s'.listings) (hop : op = d.operation i)
    (hknown : d.fills i = true → (missingFor? counts' i).isSome)
    (hws : s'.listings = enlist (d.roll counts' (i + 1)))
    (hnext : s'.nextThread.raw = (d.roll counts' (i + 1)).length) :
    Serves d counts' (sys.apply (.client 0) op
      (.reply s' (.thread ⟨(d.roll counts' i).length⟩))) := by
  have hcount : Agenda.submissions (Outcome.returns (.client 0) op
      (.reply s' (.thread ⟨(d.roll counts' i).length⟩)) ++ sys.returns) = i + 1 := by
    simp [Outcome.returns, Agenda.submissions, ← hi]
  refine h.apply_client hlistings ⟨_, hws, ?_⟩ (hi ▸ hcounted) (fun j hj hnot hfills => ?_)
    fun r hr t ht => ?_
  · rw [hcount, Outcome.state, hnext]
    exact .outside
  · rw [hcount] at hj
    rw [hi] at hnot
    obtain rfl : j = i := by omega
    exact hknown hfills
  · rw [hcount]
    cases List.mem_singleton.mp hr
    cases ht
    exact ⟨i, Nat.lt_succ_self i, hop, rfl⟩

/-- The client counts the primaries that the round lacks. -/
lemma client_counts (h : Serves d counts sys) (hi : Agenda.submissions sys.returns = i)
    (hfills : d.fills i = true)
    (hws : sys.state.listings = enlist (d.roll counts i ++ [.scripted i]))
    (hnext : sys.state.nextThread.raw = (d.roll counts i ++ [Work.scripted i]).length)
    (ho : Intake sys.config sys.state (.count ⟨(d.roll counts i).length⟩) o) (r : Nat) :
    Serves d (⟨i, r, sys.state.missingPrimaries⟩ :: counts)
      (sys.apply (.client 0) (d.operation i) o) := by
  generalize hcounts : (⟨i, r, sys.state.missingPrimaries⟩ :: counts : List Count) = counts'
  have hbefore : ∀ j < i, missingFor? counts' j = missingFor? counts j := fun j hj => by
    simp [← hcounts, missingFor?, Nat.ne_of_gt hj]
  have hnow : missingFor? counts' i = some sys.state.missingPrimaries := by
    simp [← hcounts, missingFor?]
  have hroll : d.roll counts' i = d.roll counts i := roll_congr fun j hj _ => hbefore j hj
  rw [← hroll] at hws hnext ho
  cases ho with
  | lacking _ n hn =>
    refine h.client_goto (.inr rfl) (hi ▸ hbefore) ⟨_, hws, ?_⟩ List.prefix_rfl
    have howes : Owes d counts' i _ _ _ :=
      .filler 0 n hfills (by rw [hnow, hn, Nat.zero_add])
    rw [hi, hnext]
    exact .enrol _ _ _ howes
  | sufficient _ hn =>
    have hsucc : d.roll counts' (i + 1) = d.roll counts' i ++ [.scripted i] := by
      simp [roll_succ, extra, hnow, hn]
    exact h.client_reply hi hbefore List.prefix_rfl rfl (fun _ => by simp [hnow])
      (hsucc ▸ hws) (hsucc ▸ hnext)

/-- The client lists the thread that it has a number for, and owes another one or returns. -/
lemma client_lists {ws : List Work} {w : Work} {k : AfterListing} (h : Serves d counts sys)
    (hnames : sys.config.namesWorkers = true) (hi : Agenda.submissions sys.returns = i)
    (hws : sys.state.listings = enlist ws) (hnext : sys.state.nextThread.raw = ws.length + 1)
    (howes : Owes d counts i ws w k)
    (ho : Intake sys.config sys.state (.list ⟨ws.length⟩ w k) o) :
    Serves d counts (sys.apply (.client 0) (d.operation i) o) := by
  have hlistings : (sys.state.list ⟨ws.length⟩ w).listings = enlist (ws ++ [w]) := by
    rw [listings_list, hws, enlist_concat]
  have hgrows : sys.state.listings <+: (sys.state.list ⟨ws.length⟩ w).listings := by
    rw [listings_list]
    exact List.prefix_append _ _
  have hlength : (sys.state.list ⟨ws.length⟩ w).nextThread.raw = (ws ++ [w]).length := by
    rw [List.length_append]
    exact hnext
  cases ho with
  | unnamed _ _ _ hunnamed => simp [hnames] at hunnamed
  | listed =>
    cases howes with
    | only hfills =>
      have hsucc : d.roll counts (i + 1) = d.roll counts i ++ [.scripted i] := by
        simp [roll_succ, extra, hfills]
      exact h.client_reply hi (fun _ _ => rfl) hgrows rfl (by simp [hfills])
        (hsucc ▸ hlistings) (hsucc ▸ hlength)
  | listedToCount =>
    cases howes with
    | first hfills =>
      refine h.client_goto (.inr rfl) (fun _ _ => rfl) ⟨_, hlistings, ?_⟩ hgrows
      rw [hi, hlength]
      exact .count hfills
  | listedWithMore _ _ n first =>
    cases howes with
    | filler m left hfills hcounted =>
      refine h.client_goto (.inr rfl) (fun _ _ => rfl) ⟨_, hlistings, ?_⟩ hgrows
      rw [hi, hlength]
      have howes : Owes d counts i _ _ _ :=
        .filler (m + 1) n hfills (by rw [hcounted]; congr 1; omega)
      rw [List.replicate_succ', ← List.cons_append, ← List.append_assoc] at howes
      exact .enrol _ _ _ howes
  | listedLast _ _ first =>
    cases howes with
    | filler m left hfills hcounted =>
      have hsucc : d.roll counts (i + 1) = d.roll counts i ++
          .scripted i :: List.replicate m .filler ++ [.filler] := by
        rw [roll_succ, extra, if_pos hfills, hcounted, Option.getD_some, Nat.add_zero,
          List.replicate_succ', List.append_assoc, List.cons_append]
      exact h.client_reply hi (fun _ _ => rfl) hgrows rfl (fun _ => by simp [hcounted])
        (hsucc ▸ hlistings) (hsucc ▸ hlength)

/-- The client goes one place further. -/
lemma intake (h : Serves d counts sys) (hnames : sys.config.namesWorkers = true)
    (hinside : sys.inside = some (.client 0)) {p : Submission}
    (hcall : sys.calls.get? (.client 0) = some ⟨op, .submission p⟩)
    (ho : Intake sys.config sys.state p o) :
    Serves d (sys.count?.toList ++ counts) (sys.apply (.client 0) op o) := by
  obtain ⟨ws, hws, hserving⟩ := h.serving
  obtain ⟨i, hi⟩ : ∃ i, Agenda.submissions sys.returns = i := ⟨_, rfl⟩
  obtain ⟨next, hnext⟩ : ∃ next, sys.state.nextThread.raw = next := ⟨_, rfl⟩
  rw [hi, hcall, hnext] at hserving
  cases hserving with
  | count hfills =>
    have hcount : sys.count? = some ⟨i, sys.state.round, sys.state.missingPrimaries⟩ := by
      simp [System.count?, hinside, hcall, operation_of_fills hfills]
    rw [hcount]
    exact h.client_counts hi hfills hws hnext ho _
  | enrol _ w k howes =>
    have hidle : sys.count? = none := by simp [System.count?, hinside, hcall]
    rw [hidle]
    have hthread : sys.state.nextThread = ⟨ws.length⟩ := by rw [← hnext]
    have hraw : sys.state.enrol.nextThread.raw = ws.length + 1 := by
      rw [enrol, hthread]
      rfl
    cases ho with
    | blocked =>
      refine h.client_goto (.inl rfl) (fun _ _ => rfl) ⟨ws, hws, ?_⟩ List.prefix_rfl
      rw [hi, awaitAdmission, hraw, hthread]
      exact .wait ws w k howes
    | passed =>
      refine h.client_goto (.inl rfl) (fun _ _ => rfl) ⟨ws, hws, ?_⟩ List.prefix_rfl
      rw [hi, hraw, hthread]
      exact .list ws w k howes
  | wait _ w k howes =>
    have hidle : sys.count? = none := by simp [System.count?, hinside, hcall]
    rw [hidle]
    cases ho with
    | sleepForAdmission =>
      refine h.apply_client List.prefix_rfl ⟨ws, hws, ?_⟩ (fun _ _ => rfl)
        (fun j hj hnot => absurd hj hnot) (by simp [Outcome.returns])
      simp only [Outcome.call?, hcall, Outcome.returns, List.nil_append, hi, Outcome.state, hnext]
      exact .wait ws w k howes
    | admitted =>
      refine h.client_goto (.inl rfl) (fun _ _ => rfl) ⟨ws, hws, ?_⟩ List.prefix_rfl
      rw [hi, hnext]
      exact .list ws w k howes
  | list _ w k howes =>
    have hidle : sys.count? = none := by simp [System.count?, hinside, hcall]
    rw [hidle]
    exact h.client_lists hnames hi hws hnext howes ho

/-- The client begins an errand. -/
lemma client_calls (h : Serves d counts sys) (hidle : sys.calls.get? (.client 0) = none)
    (hi : Agenda.submissions sys.returns = i) :
    Serves d counts (sys.apply (.client 0) (d.operation i)
      (.goto sys.state (.submission (.enrol (.scripted i) (d.afterUnit i))))) := by
  obtain ⟨ws, hws, hserving⟩ := h.serving
  obtain ⟨next, hnext⟩ : ∃ next, sys.state.nextThread.raw = next := ⟨_, rfl⟩
  rw [hi, hidle, hnext] at hserving
  cases hserving with
  | outside =>
    have howes : Owes d counts i (d.roll counts i) (.scripted i) (d.afterUnit i) := by
      cases hfills : d.fills i with
      | true => simpa [afterUnit, hfills] using Owes.first hfills
      | false => simpa [afterUnit, hfills] using Owes.only hfills
    refine h.client_goto (.inl rfl) (fun _ _ => rfl) ⟨_, hws, ?_⟩ List.prefix_rfl
    rw [hi, hnext]
    exact .enrol _ _ _ howes

/-- Threads that are alive were listed. -/
lemma raw_lt_of_alive (h : Serves d counts sys) (hs : sys.state.Sound)
    (haccounted : Accounted sys.state) (halive : sys.state.isAlive t = true) :
    t.raw < sys.state.listings.length := by
  obtain ⟨r, hr, hstarted, -⟩ := exists_record_of_isAlive halive
  obtain ⟨w, hw⟩ := haccounted.listed t (hs.roster.mem_list hr hstarted)
  obtain ⟨ws, hws, -⟩ := h.serving
  rw [hws] at hw ⊢
  obtain ⟨k, hk, heq⟩ := List.mem_mapIdx.mp hw
  cases heq
  simpa [enlist] using hk

/-- Only the client submits. -/
lemma eq_client (h : Serves d counts sys) (hinv : Invariant sys) {a : Agent} {p : Submission}
    (hcall : sys.calls.get? a = some ⟨op, .submission p⟩) : a = .client 0 := by
  cases a with
  | unit t =>
    have hsubmits := (hcall ▸ hinv.placed (.unit t)).of_submission.1
    cases (h.units t _ hcall).2.symm.trans hsubmits
  | client n =>
    cases n with
    | zero => rfl
    | succ n => cases (h.clients n).symm.trans hcall

/-- Every move that follows the docket is one of the listed possibilities. -/
theorem going (h : Serves d counts sys) (hinv : Invariant sys) (hstep : d.Step sys sys') :
    d.Going sys sys' := by
  obtain ⟨m, hpermits, hm⟩ := hstep
  cases m with
  | call a op =>
    have hnext : d.next? sys a = some op := by simpa [permits] using hpermits
    obtain ⟨⟨⟨⟨hinside, hidle⟩, halive⟩, hlocks⟩, o, ho, rfl⟩ :=
      System.move?_call_eq_some_iff.mp hm
    cases a with
    | unit t =>
      exact .call t op o (Option.some_inj.mp hnext).symm hinside hidle halive hlocks ho
    | client n =>
      cases n with
      | zero =>
        obtain ⟨-, hop⟩ := Option.ite_none_right_eq_some.mp hnext
        rw [← Option.some_inj.mp hop, start?_operation] at ho
        rw [← Option.some_inj.mp hop, ← Option.some_inj.mp ho]
        exact .errand _ rfl hinside hidle
      | succ n => cases hnext
  | advance =>
    cases hinside : sys.inside with
    | none => simp [System.move?, hinside] at hm
    | some a =>
      simp only [System.move?, hinside] at hm
      obtain ⟨⟨op, point⟩, hcall, rfl⟩ := Option.map_eq_some_iff.mp hm
      cases point with
      | thread t ph =>
        obtain ⟨rfl, -, -⟩ := hinv.stretch_of_call hcall d.eligible
        exact .stretch t op ph hinside hcall
      | submission p =>
        obtain rfl := h.eq_client hinv hcall
        exact .intake op p hinside hcall
  | enter a =>
    obtain ⟨⟨hinside, hcall⟩, rfl⟩ := System.move?_enter_eq_some_iff.mp hm
    exact .enter a hinside hcall
  | newLock | dropLock l => cases hpermits

/-- Every move that follows the docket keeps the numbers that were counted an explanation. -/
theorem step (h : Serves d counts sys) {c : Config} (hnames : c.namesWorkers = true)
    (hreach : System.Reachable c sys) (hstep : d.Step sys sys') :
    Serves d (sys.count?.toList ++ counts) sys' := by
  have hinv := Invariant.of_reachable hreach
  have haccounted := (Conserved.of_reachable hnames hreach).accounted
  cases h.going hinv hstep with
  | call t op o hop hinside hidle halive hlocks ho =>
    rw [count?_eq_none (by simp [hinside])]
    have ho := Operation.opening_of_start? hinv.sound hlocks ho
    exact h.apply_unit (ho.change (w := none)) (h.raw_lt_of_alive hinv.sound haccounted halive)
      (hop ▸ Routine.submits_operation _)
  | stretch t op ph hinside hcall =>
    rw [count?_eq_none (by simp [hinside])]
    obtain ⟨-, hop, ho⟩ := hinv.stretch_of_call hcall d.eligible
    exact h.apply_unit (hinv.stretch_change hcall hop ho) (h.units t _ hcall).1
      (h.units t _ hcall).2
  | errand i hi hinside hidle =>
    rw [count?_eq_none (by simp [hinside])]
    exact h.client_calls hidle hi
  | intake op p hinside hcall =>
    exact h.intake (hreach.config_eq ▸ hnames) hinside hcall (hinv.intake_of_call hcall)
  | enter a hinside hcall =>
    rw [count?_eq_none (by simp [hinside])]
    exact ⟨h.serving, h.known, h.answers, h.clients, h.units, h.quiet⟩

end Serves

end Docket

end RoundScheduler
