import RoundScheduler.Proofs.Livelock.Ownership

/-!
# Stays inside the critical section

A thread that is inside the critical section goes from place to place, and nobody else acts until it
leaves: because its operation returns, or because it comes to a wait whose condition is false. How
the stay goes on is determined by the state alone. `Leads` says that a stay gets somewhere, and
`StandsAt.leads` reduces this to the places at which the operation goes on.
-/

namespace RoundScheduler

open State

/-! ### Where an operation goes on -/

/-- After its look at the round a thread is in the same operation. -/
lemma AfterCheck.operation_of_phase? {k : AfterCheck} {ph : Phase} (h : k.phase? = some ph) :
    ph.operation = k.operation := by
  cases k <;> cases h <;> rfl

/-- After a fill a thread is in the same operation. -/
lemma AfterFill.operation_phase (k : AfterFill) : k.phase.operation = k.operation := by
  cases k <;> rfl

/-- The purpose of a request for a lock is that lock. -/
lemma Purpose.eq_lock {p : Purpose} {l : LockId} (h : p.operation = .lock l) : p = .lock l := by
  cases p <;> cases h
  rfl

/-- An operation that goes on keeps its caller. -/
lemma Stretch.exists_phase {eligible : ThreadId → Bool} {s s' : State} {me : ThreadId} {ph : Phase}
    {point : Point} (ho : Stretch eligible s me ph (.goto s' point)) :
    ∃ ph', point = .thread me ph' ∧ ph'.operation = ph.operation := by
  cases ho with
  | stillOpen k ph' hk => exact ⟨ph', rfl, AfterCheck.operation_of_phase? hk⟩
  | filled index plan k => exact ⟨k.phase, rfl, k.operation_phase⟩
  | _ => exact ⟨_, rfl, rfl⟩

namespace System

/-! ### Steps without anybody else -/

/-- Whoever is inside the critical section gets to a system with a property by going on. -/
def Leads (eligible : ThreadId → Bool) (P : System → Prop) (sys : System) : Prop :=
  ∃ n last, sys.follow? eligible (List.replicate n .advance) = some last ∧ P last

/-- The critical section is free, and the thread would not get further by entering it: its operation
returned, or the condition is false for which it waits. -/
def HasLeft (eligible : ThreadId → Bool) (t : ThreadId) (sys : System) : Prop :=
  sys.inside = none ∧ sys.canProceed eligible (.unit t) = false

variable {eligible : ThreadId → Bool} {P : System → Prop} {sys sys' : System} {t : ThreadId}
  {ph ph' : Phase} {s' : State}

/-- A stay leads to where it is. -/
lemma Leads.here (h : P sys) : sys.Leads eligible P := ⟨0, sys, rfl, h⟩

/-- A stay leads to where it leads after one step. -/
lemma Leads.step (hm : sys.move? eligible .advance = some sys') (h : sys'.Leads eligible P) :
    sys.Leads eligible P := by
  obtain ⟨n, last, hlast, hP⟩ := h
  refine ⟨n + 1, last, ?_, hP⟩
  rw [List.replicate_succ, follow?, hm]
  exact hlast

/-- Moves are followed one after the other. -/
lemma follow?_append (ms ms' : List Move) : sys.follow? eligible (ms ++ ms') =
    (sys.follow? eligible ms).bind fun next => next.follow? eligible ms' := by
  induction ms generalizing sys with
  | nil => rfl
  | cons m ms ih =>
    rw [List.cons_append, follow?, follow?, Option.bind_assoc]
    exact congrArg _ (funext fun next => ih)

/-- Nobody goes on in a critical section that is free. -/
lemma inside_eq_none_of_follow? {n : Nat} (h : sys.inside = none)
    (hlast : sys.follow? eligible (List.replicate n .advance) = some sys') :
    sys'.inside = none := by
  cases n with
  | zero =>
    cases hlast
    exact h
  | succ n => simp [List.replicate_succ, follow?, move?, h] at hlast

/-! ### A thread at a place -/

/-- The thread `t` is inside the critical section, at a place of its operation. -/
structure StandsAt (sys : System) (t : ThreadId) (ph : Phase) : Prop where
  invariant : Invariant sys
  inside : sys.inside = some (.unit t)
  call : sys.calls.get? (.unit t) = some ⟨ph.operation, .thread t ph⟩

/-- Whoever acquires a lock stands at a place of that operation. -/
lemma Reachable.exists_standsAt {c : Config} {l : LockId} {point : Point} (h : Reachable c sys)
    (hinside : sys.inside = some (.unit t))
    (hcall : sys.calls.get? (.unit t) = some ⟨.lock l, point⟩) :
    ∃ ph, sys.StandsAt t ph ∧ ph.operation = .lock l := by
  have hinv := Invariant.of_reachable h
  obtain ⟨call, hc⟩ : ∃ call : Option Call, call = some ⟨.lock l, point⟩ := ⟨_, rfl⟩
  have hplaced := (hcall.trans hc.symm) ▸ hinv.placed (.unit t)
  cases hplaced with
  | idle => cases hc
  | thread _ ph =>
    have hop : ph.operation = .lock l := congrArg Call.operation (Option.some_inj.mp hc)
    exact ⟨ph, ⟨hinv, hinside, hcall.trans hc.symm⟩, hop⟩
  | submitter _ op p hop =>
    cases hc
    cases hop

namespace StandsAt

/-- An operation that goes on does so at another place. -/
lemma next (h : sys.StandsAt t ph)
    (ho : Stretch eligible sys.state t ph (.goto s' (.thread t ph'))) :
    (sys.apply (.unit t) ph.operation (.goto s' (.thread t ph'))).StandsAt t ph' := by
  refine ⟨h.invariant.stretch h.inside h.call rfl ho, rfl, ?_⟩
  obtain ⟨_, hpoint, hop⟩ := ho.exists_phase
  cases hpoint
  rw [get?_calls_apply, if_pos rfl, Outcome.call?, hop]

/-- A thread that is inside goes on as its phase says. -/
lemma move?_advance (h : sys.StandsAt t ph) : sys.move? eligible .advance =
    some (sys.apply (.unit t) ph.operation (ph.step eligible t sys.state)) := by
  simp only [move?, h.inside, h.call, Option.map_some]
  rfl

/-- A thread that is inside goes through a stretch. -/
lemma stretch (h : sys.StandsAt t ph) :
    Stretch eligible sys.state t ph (ph.step eligible t sys.state) :=
  (h.invariant.stretch_of_call h.call eligible).2.2

/-- A stay gets somewhere if it does so wherever the operation goes on, and when the thread has left
the critical section. -/
lemma leads (h : sys.StandsAt t ph) (hleft : ∀ last, last.HasLeft eligible t → P last)
    (hgoto : ∀ s' ph', Stretch eligible sys.state t ph (.goto s' (.thread t ph')) →
      ∀ next : System, next.StandsAt t ph' → next.state = s' → next.Leads eligible P) :
    sys.Leads eligible P := by
  have hstretch : Stretch eligible _ _ _ _ := h.stretch
  refine .step h.move?_advance ?_
  generalize ho : ph.step eligible t sys.state = o at hstretch
  cases o with
  | sleep =>
    refine .here (hleft _ ⟨rfl, ?_⟩)
    have hsleep : (sys.apply (.unit t) ph.operation .sleep).outcome eligible
        ⟨ph.operation, .thread t ph⟩ = .sleep := ho
    rw [canProceed, get?_calls_apply, if_pos rfl, Outcome.call?, h.call]
    simp only [hsleep, Outcome.isSleep, Bool.not_true]
  | goto s' point =>
    obtain ⟨ph', rfl, -⟩ := hstretch.exists_phase
    exact hgoto s' ph' hstretch _ (h.next hstretch) rfl
  | pause s' point => cases hstretch
  | reply s' r =>
    refine .here (hleft _ ⟨rfl, ?_⟩)
    rw [canProceed, get?_calls_apply, if_pos rfl]
    rfl

end StandsAt

end System

end RoundScheduler
