import RoundScheduler.Proofs.Invariant
import RoundScheduler.Proofs.State.Events

/-!
# Mutual exclusion

Who holds a lock is known three times: by the answers that threads got to `lock` and `unlock`, by
the recorded owner, and by the recorded grants. They change at different moments, because a lock is
handed over by the thread that releases it, and the new owner learns of it later. What connects them
is that the grants of a lock are the threads that released it, in order, followed by its owner.
-/

namespace RoundScheduler

open State

/-! ### What threads were told -/

/-- Whether an answer tells the thread `t` that it acquired or released the lock `l`. -/
def Return.concerns (t : ThreadId) (l : LockId) (r : Return) : Bool :=
  r.agent = .unit t && r.reply = .done && (r.operation = .lock l || r.operation = .unlock l)

/-- The thread that an answer tells that it released the lock `l`, if it does. -/
def Return.releaser? (l : LockId) (r : Return) : Option ThreadId :=
  if r.reply = .done ∧ r.operation = .unlock l then r.agent.thread? else none

namespace System

/-- A thread was told that it acquired a lock, and not yet that it released it. -/
def Holds (sys : System) (t : ThreadId) (l : LockId) : Prop :=
  ∃ r, sys.returns.find? (Return.concerns t l) = some r ∧ r.operation = .lock l

/-- The threads that released a lock, in order. -/
def releasers (sys : System) (l : LockId) : List ThreadId :=
  sys.returns.reverse.filterMap (Return.releaser? l)

/-- The threads that a lock was granted to, in order. -/
def grants (sys : System) (l : LockId) : List ThreadId :=
  sys.state.journal.schedule.lockGrants l

end System

/-- The grants, releases and answers that concern the lock `l` agree on its owner `o`. -/
structure Owned (sys : System) (l : LockId) (o : Option ThreadId) : Prop where
  /-- Whoever was granted the lock released it, the owner excepted. -/
  grants : sys.grants l = sys.releasers l ++ o.toList
  /-- The owner is recorded, as long as the lock exists. -/
  owner : ∀ k, sys.state.lock? l = some k → k.owner = o
  /-- Nobody owned a lock before it was created. -/
  fresh : sys.state.nextLock.raw ≤ l.raw → o = none
  /-- Nobody but the owner was told that it holds the lock. -/
  holder : ∀ t, sys.Holds t l → o = some t

/-- After a move the lock `l` has an owner in every respect, and it is the thread that was granted
the lock by the move, if one was. -/
def OwnedAfter (sys sys' : System) (l : LockId) : Prop :=
  ∃ o, Owned sys' l o ∧ ∀ t, sys'.grants l = sys.grants l ++ [t] → o = some t

namespace Owned

variable {sys sys' : System} {a : Agent} {t u : ThreadId} {l : LockId} {o : Option ThreadId}

/-! ### One more answer -/

lemma holds_cons {r : Return} (hreturns : sys'.returns = r :: sys.returns) :
    sys'.Holds u l ↔ if r.concerns u l then r.operation = .lock l else sys.Holds u l := by
  rw [System.Holds, hreturns, List.find?_cons]
  split
  · next h => simp [h]
  · next h => simp [h, System.Holds]

lemma releasers_cons {r : Return} (hreturns : sys'.returns = r :: sys.returns) :
    sys'.releasers l = sys.releasers l ++ (r.releaser? l).toList := by
  rw [System.releasers, hreturns, List.reverse_cons, List.filterMap_append]
  cases h : r.releaser? l <;> simp [h, System.releasers]

lemma grants_apply {op : Operation} {out : Outcome} (l : LockId) :
    (sys.apply a op out).grants l = (out.state sys.state).events.filterMap (Event.grant? l) :=
  congrArg (fun s : State => s.events.filterMap (Event.grant? l)) (System.state_apply ..)

/-! ### Who owns the lock after a move -/

/-- A move that does not grant the lock grants it to nobody. -/
lemma after (h : Owned sys' l o) (hgrants : sys'.grants l = sys.grants l) :
    OwnedAfter sys sys' l :=
  ⟨o, h, fun t ht => by simp [hgrants] at ht⟩

/-- A move that grants the lock grants it to the owner. -/
lemma after_grant (h : Owned sys' l (some t)) (hgrants : sys'.grants l = sys.grants l ++ [t]) :
    OwnedAfter sys sys' l :=
  ⟨some t, h, fun u hu => by simpa [hgrants] using hu⟩

/-- Nothing changes for a lock if it is neither granted nor released and no answer concerns it. -/
lemma keep (h : Owned sys l o) (hgrants : sys'.grants l = sys.grants l)
    (hreleasers : sys'.releasers l = sys.releasers l)
    (howner : ∀ k', sys'.state.lock? l = some k' →
      (∃ k, sys.state.lock? l = some k ∧ k.owner = k'.owner) ∨
        l = sys.state.nextLock ∧ k'.owner = none)
    (hnext : sys.state.nextLock.raw ≤ sys'.state.nextLock.raw)
    (hholds : ∀ t, sys'.Holds t l → sys.Holds t l ∨ o = some t) : Owned sys' l o where
  grants := hgrants.trans (h.grants.trans (by rw [hreleasers]))
  owner k' hk' := by
    rcases howner k' hk' with ⟨k, hk, heq⟩ | ⟨hl, hfree⟩
    · exact heq ▸ h.owner k hk
    · rw [hfree, h.fresh (hl ▸ Nat.le_refl _)]
  fresh hl := h.fresh (Nat.le_trans hnext hl)
  holder t ht := (hholds t ht).elim (h.holder t) id

/-- An answer that concerns neither the acquisition nor the release of the lock changes nothing. -/
lemma keep_apply (h : Owned sys l o) {op : Operation} {out : Outcome}
    (hanswer : ∀ r ∈ out.returns a op, r.reply = .done →
      r.operation ≠ .lock l ∧ r.operation ≠ .unlock l)
    (hevents : (out.state sys.state).events.filterMap (Event.grant? l) =
      sys.state.events.filterMap (Event.grant? l))
    (howner : ∀ k', (out.state sys.state).lock? l = some k' →
      ∃ k, sys.state.lock? l = some k ∧ k.owner = k'.owner)
    (hnext : (out.state sys.state).nextLock = sys.state.nextLock) :
    OwnedAfter sys (sys.apply a op out) l := by
  have hanswers : (sys.apply a op out).releasers l = sys.releasers l ∧
      ∀ t, (sys.apply a op out).Holds t l → sys.Holds t l := by
    cases out with
    | reply s' reply =>
      have hr := hanswer ⟨a, op, reply⟩ (List.mem_singleton.mpr rfl)
      have hreturns : (sys.apply a op (.reply s' reply)).returns =
          ⟨a, op, reply⟩ :: sys.returns := rfl
      have hreleaser : Return.releaser? l ⟨a, op, reply⟩ = none := by
        rw [Return.releaser?, if_neg fun ⟨hdone, hop⟩ => (hr hdone).2 hop]
      have hconcerns : ∀ t, Return.concerns t l ⟨a, op, reply⟩ = false := fun t => by
        by_cases hdone : reply = .done
        · simp [Return.concerns, (hr hdone).1, (hr hdone).2]
        · simp [Return.concerns, hdone]
      refine ⟨?_, fun t ht => ?_⟩
      · rw [releasers_cons hreturns, hreleaser]
        simp
      · rw [holds_cons hreturns, hconcerns] at ht
        simpa using ht
    | _ => exact ⟨rfl, fun _ => id⟩
  have hgrants : (sys.apply a op out).grants l = sys.grants l :=
    (grants_apply l).trans hevents
  refine (h.keep hgrants hanswers.1 (fun k' hk' => ?_) ?_ fun t ht => .inl (hanswers.2 t ht)).after
    hgrants
  · exact .inl (howner k' (by simpa using hk'))
  · exact Nat.le_of_eq (by rw [System.state_apply, hnext])

/-- What an answer to a thread that acquired the lock changes. -/
lemma acquired_cons (hreturns : sys'.returns = ⟨.unit t, .lock l, .done⟩ :: sys.returns) :
    sys'.releasers l = sys.releasers l ∧ ∀ u, sys'.Holds u l → u = t ∨ sys.Holds u l := by
  constructor
  · rw [releasers_cons hreturns]
    simp [Return.releaser?]
  · intro u hu
    rw [holds_cons hreturns] at hu
    by_cases hut : u = t
    · exact .inl hut
    · right
      simpa [Return.concerns, Ne.symm hut] using hu

/-- What an answer to a thread that released the lock changes. -/
lemma released_cons (hreturns : sys'.returns = ⟨.unit t, .unlock l, .done⟩ :: sys.returns) :
    sys'.releasers l = sys.releasers l ++ [t] ∧ ∀ u, sys'.Holds u l → u ≠ t ∧ sys.Holds u l := by
  constructor
  · rw [releasers_cons hreturns]
    simp [Return.releaser?, Agent.thread?]
  · intro u hu
    rw [holds_cons hreturns] at hu
    by_cases hut : u = t
    · simp [Return.concerns, hut] at hu
    · refine ⟨hut, ?_⟩
      simpa [Return.concerns, Ne.symm hut] using hu

/-- A free lock is acquired by the thread that asks for it. -/
lemma acquire (h : Owned sys l none)
    (hreturns : sys'.returns = ⟨.unit t, .lock l, .done⟩ :: sys.returns)
    (hgrants : sys'.grants l = sys.grants l ++ [t])
    (howner : ∀ k, sys'.state.lock? l = some k → k.owner = some t)
    (hnext : l.raw < sys'.state.nextLock.raw) : Owned sys' l (some t) where
  grants := by
    rw [hgrants, h.grants, (acquired_cons hreturns).1]
    simp
  owner := howner
  fresh hl := absurd hnext (Nat.not_lt.mpr hl)
  holder u hu := by
    rcases (acquired_cons hreturns).2 u hu with rfl | hu
    · rfl
    · exact absurd (h.holder u hu) nofun

/-- A thread learns that it was handed the lock. -/
lemma learn (h : Owned sys l (some t))
    (hreturns : sys'.returns = ⟨.unit t, .lock l, .done⟩ :: sys.returns)
    (hstate : sys'.state = sys.state) : Owned sys' l (some t) where
  grants := by
    have hgrants : sys'.grants l = sys.grants l := by rw [System.grants, hstate, System.grants]
    rw [hgrants, h.grants, (acquired_cons hreturns).1]
  owner := hstate ▸ h.owner
  fresh := hstate ▸ h.fresh
  holder u hu := by
    rcases (acquired_cons hreturns).2 u hu with rfl | hu
    · rfl
    · exact h.holder u hu

/-- The owner releases the lock, to the thread `next` if there is one. -/
lemma release (h : Owned sys l (some t)) {next : Option ThreadId}
    (hreturns : sys'.returns = ⟨.unit t, .unlock l, .done⟩ :: sys.returns)
    (hgrants : sys'.grants l = sys.grants l ++ next.toList)
    (howner : ∀ k, sys'.state.lock? l = some k → k.owner = next)
    (hnext : l.raw < sys'.state.nextLock.raw) : Owned sys' l next where
  grants := by
    rw [hgrants, h.grants, (released_cons hreturns).1]
    rfl
  owner := howner
  fresh hl := absurd hnext (Nat.not_lt.mpr hl)
  holder u hu := by
    obtain ⟨hut, hu⟩ := (released_cons hreturns).2 u hu
    exact absurd (Option.some_inj.mp (h.holder u hu)).symm hut

/-- The call of an operation leaves the lock with an owner. -/
lemma call (h : Owned sys l o) (hinv : Invariant sys) {op : Operation} {out : Outcome}
    (ho : Opening sys.state a op out) : OwnedAfter sys (sys.apply a op out) l := by
  have hfresh : ∀ {k : LockState}, sys.state.lock? l = some k → l.raw < sys.state.nextLock.raw :=
    fun hk => hinv.sound.queues.fresh l _ hk
  cases ho with
  | released t m k hk howner hqueue =>
    by_cases hm : m = l
    · subst hm
      obtain rfl : o = some t := (h.owner k hk).symm.trans howner
      have hgrants : (sys.apply (.unit t) (.unlock m)
          (.reply (sys.state.release m) .done)).grants m = sys.grants m := rfl
      have howned : Owned (sys.apply (.unit t) (.unlock m) (.reply (sys.state.release m) .done)) m
          none := by
        refine h.release rfl (by simpa using hgrants) (fun k' hk' => ?_) (hfresh hk)
        obtain ⟨k, -, rfl⟩ := Option.map_eq_some_iff.mp (lock?_release.symm.trans hk')
        simp
      exact howned.after hgrants
    · refine h.keep_apply (by simp [Outcome.returns, hm]) rfl (fun k' hk' => ?_) rfl
      obtain ⟨k, hk, rfl⟩ := Option.map_eq_some_iff.mp (lock?_release.symm.trans hk')
      exact ⟨k, hk, by simp [Ne.symm hm]⟩
  | handedOver t m k next rest hk howner hqueue =>
    by_cases hm : m = l
    · subst hm
      obtain rfl : o = some t := (h.owner k hk).symm.trans howner
      have hgrants : (sys.apply (.unit t) (.unlock m)
          (.reply (sys.state.handOver m next) .done)).grants m = sys.grants m ++ [next] := by
        rw [grants_apply, Outcome.state, events_handOver, List.filterMap_append]
        simp [Event.grant?]
        rfl
      have howned : Owned (sys.apply (.unit t) (.unlock m)
          (.reply (sys.state.handOver m next) .done)) m (some next) := by
        refine h.release rfl hgrants (fun k' hk' => ?_) (hfresh hk)
        obtain ⟨k, -, rfl⟩ := Option.map_eq_some_iff.mp (lock?_handOver.symm.trans hk')
        simp
      exact howned.after_grant hgrants
    · refine h.keep_apply (by simp [Outcome.returns, hm]) ?_ (fun k' hk' => ?_) rfl
      · simp [Outcome.state, List.filterMap_append, Event.grant?, hm]
      · obtain ⟨k, hk, rfl⟩ := Option.map_eq_some_iff.mp (lock?_handOver.symm.trans hk')
        exact ⟨k, hk, by simp [Ne.symm hm]⟩
  | unlinked a m t hlink =>
    refine h.keep_apply (by simp [Outcome.returns]) rfl (fun k' hk' => ?_) rfl
    obtain ⟨k, hk, rfl⟩ := Option.map_eq_some_iff.mp ((lock?_detach [t]).symm.trans hk')
    exact ⟨k, hk, rfl⟩
  | forgotten a m t k hk hlink =>
    refine h.keep_apply (by simp [Outcome.returns]) rfl (fun k' hk' => ?_) rfl
    obtain ⟨k, hk, rfl⟩ := Option.map_eq_some_iff.mp (lock?_forget.symm.trans hk')
    exact ⟨k, hk, rfl⟩
  | _ => exact h.keep_apply (by simp [Outcome.returns]) rfl (fun k' hk' => ⟨k', hk', rfl⟩) rfl

/-- What a thread does leaves the lock with an owner. -/
lemma stretch (h : Owned sys l o) (hinv : Invariant sys) {op : Operation} {ph : Phase}
    {eligible : ThreadId → Bool} {out : Outcome} (hop : op = ph.operation)
    (ho : Stretch eligible sys.state t ph out) :
    OwnedAfter sys (sys.apply (.unit t) op out) l := by
  subst hop
  cases ho with
  | granted m k slot hslot hhead hk hfree =>
    by_cases hm : m = l
    · subst hm
      obtain rfl : o = none := (h.owner k hk).symm.trans hfree
      have hgrants : (sys.apply (.unit t) (.lock m)
          (.reply ((sys.state.afterTurn t slot).grant m t) .done)).grants m =
            sys.grants m ++ [t] := by
        have hacquired : [Event.lockAcquired (sys.state.afterTurn t slot).round m t false].filterMap
            (Event.grant? m) = [t] := by simp [Event.grant?]
        rw [grants_apply, Outcome.state, events_grant, events_afterTurn, List.filterMap_append,
          List.filterMap_append, hacquired]
        simp
        rfl
      have howned : Owned (sys.apply (.unit t) (.lock m)
          (.reply ((sys.state.afterTurn t slot).grant m t) .done)) m (some t) := by
        refine h.acquire rfl hgrants (fun k' hk' => ?_) ?_
        · obtain ⟨k, -, rfl⟩ := Option.map_eq_some_iff.mp (lock?_grant.symm.trans hk')
          simp
        · have hnext : ((sys.state.afterTurn t slot).grant m t).nextLock = sys.state.nextLock :=
            nextLock_afterTurn slot
          rw [System.state_apply, Outcome.state, hnext]
          exact hinv.sound.queues.fresh m k hk
      exact howned.after_grant hgrants
    · refine h.keep_apply (by simp [Outcome.returns, Phase.operation, Purpose.operation, hm]) ?_
        (fun k' hk' => ?_) (nextLock_afterTurn slot)
      · simp [Outcome.state, List.filterMap_append, Event.grant?, hm]
      · obtain ⟨k, hk, rfl⟩ := Option.map_eq_some_iff.mp (lock?_grant.symm.trans hk')
        exact ⟨k, (lock?_afterTurn slot).symm.trans hk, by simp [Ne.symm hm]⟩
  | handed m k hk howner =>
    by_cases hm : m = l
    · subst hm
      obtain rfl : o = some t := (h.owner k hk).symm.trans howner
      have howned : Owned (sys.apply (.unit t) (.lock m) (.reply sys.state .done)) m (some t) :=
        h.learn rfl rfl
      exact howned.after rfl
    · exact h.keep_apply (by simp [Outcome.returns, Phase.operation, hm]) rfl
        (fun k' hk' => ⟨k', hk', rfl⟩) rfl
  | queued m k slot hslot hhead hk howned =>
    refine h.keep_apply (by simp [Outcome.returns]) (by simp [Outcome.state, Event.grant?])
      (fun k' hk' => ?_) (nextLock_afterTurn slot)
    obtain ⟨k, hk, rfl⟩ := Option.map_eq_some_iff.mp (lock?_enqueue.symm.trans hk')
    exact ⟨k, (lock?_afterTurn slot).symm.trans hk, rfl⟩
  | closed k hfull hstuck =>
    refine h.keep_apply (by simp [Outcome.returns]) (by simp [Outcome.state])
      (fun k' hk' => ?_) nextLock_nextRound
    obtain ⟨k, hk, rfl⟩ := Option.map_eq_some_iff.mp (lock?_nextRound.symm.trans hk')
    exact ⟨k, hk, rfl⟩
  | turn slot | refused r slot | overflowed r slot =>
    exact h.keep_apply (by simp [Outcome.returns, Phase.operation, Purpose.operation])
      (by simp [Outcome.state, Event.grant?])
      (fun k' hk' => ⟨k', (lock?_afterTurn slot).symm.trans hk', rfl⟩) (nextLock_afterTurn slot)
  | staged r slot =>
    exact h.keep_apply (by simp [Outcome.returns]) (by simp [Outcome.state, Event.grant?])
      (fun k' hk' => ⟨k', (lock?_afterTurn slot).symm.trans hk', rfl⟩) (nextLock_afterTurn slot)
  | left =>
    exact h.keep_apply (by simp [Outcome.returns, Phase.operation, AfterCheck.operation]) rfl
      (fun k' hk' => ⟨k', hk', rfl⟩) rfl
  | retired slot =>
    exact h.keep_apply (by simp [Outcome.returns]) (by simp [Outcome.state, Event.grant?])
      (fun k' hk' => ⟨k', (lock?_afterRetirement slot).symm.trans hk', rfl⟩)
      (nextLock_afterRetirement slot)
  | bootstrap | bootstrapRetirement =>
    exact h.keep_apply (by simp [Outcome.returns]) (by simp [Outcome.state])
      (fun k' hk' => ⟨k', lock?_beginRound.symm.trans hk', rfl⟩) nextLock_beginRound
  | filled =>
    exact h.keep_apply (by simp [Outcome.returns]) (by simp [Outcome.state, Event.grant?])
      (fun k' hk' => ⟨k', hk', rfl⟩) rfl
  | _ => exact h.keep_apply (by simp [Outcome.returns]) rfl (fun k' hk' => ⟨k', hk', rfl⟩) rfl

/-- A move leaves a lock with an owner. -/
theorem step (h : Owned sys l o) (hinv : Invariant sys) (hs : System.Step sys sys') :
    OwnedAfter sys sys' l := by
  obtain ⟨eligible, move, hmove⟩ := hs
  cases hinv.transition hmove with
  | call a op out hinside hidle halive hlocks ho => exact h.call hinv ho
  | stretch t op ph out hinside hcall hop ho => exact h.stretch hinv hop ho
  | intake a op p out hinside hcall ho =>
    obtain ⟨hop, -⟩ := (hcall ▸ hinv.placed a).of_submission
    have hanswer : ∀ r ∈ out.returns a op, r.operation = op := by
      cases out <;> simp [Outcome.returns]
    have hevents : (out.state sys.state).events = sys.state.events := by
      cases ho <;> simp [Outcome.state]
    have hnext : (out.state sys.state).nextLock = sys.state.nextLock := by cases ho <;> rfl
    refine h.keep_apply (fun r hr _ => ?_) (by rw [hevents])
      (fun k' hk' => ⟨k', (ho.lock?_eq l).symm.trans hk', rfl⟩) hnext
    rw [hanswer r hr]
    constructor <;> rintro rfl <;> cases hop
  | enter a call hinside hcall => exact after ⟨h.grants, h.owner, h.fresh, h.holder⟩ rfl
  | newLock hinside =>
    have howned : Owned { sys with state := sys.state.registerLock } l o := by
      refine h.keep rfl rfl (fun k' hk' => ?_) (Nat.le_succ _) fun t ht => .inl ht
      rw [lock?_registerLock] at hk'
      split at hk'
      · next hl => exact .inr ⟨hl, Option.some_inj.mp hk' ▸ rfl⟩
      · exact .inl ⟨k', hk', rfl⟩
    exact howned.after rfl
  | dropLock m hinside hm hunused =>
    have hgrants : System.grants { sys with state := sys.state.dropLock m } l = sys.grants l :=
      congrArg (List.filterMap (Event.grant? l)) (events_dropLock hm)
    refine (h.keep hgrants rfl (fun k' hk' => ?_) ?_ fun t ht => .inl ht).after hgrants
    · rw [lock?_dropLock hm] at hk'
      split at hk'
      · cases hk'
      · exact .inl ⟨k', hk', rfl⟩
    · exact Nat.le_of_eq (by rw [dropLock_eq hm])

/-- In a system that can be reached every lock has one owner in every respect. -/
theorem of_reachable {c : Config} (h : System.Reachable c sys) (l : LockId) :
    ∃ o, Owned sys l o := by
  induction h using System.Reachable.induction with
  | initial sys hstart =>
    obtain ⟨rounds, -, rfl⟩ := Invariant.exists_rounds_of_initial hstart
    exact ⟨none, rfl, nofun, fun _ => rfl, nofun⟩
  | step sys sys' hreach hs ih =>
    obtain ⟨o, howned⟩ := ih
    obtain ⟨o', howned', -⟩ := howned.step (Invariant.of_reachable hreach) hs
    exact ⟨o', howned'⟩

end Owned

/-! ### What follows for callers -/

namespace System

variable {sys sys' : System} {t : ThreadId} {l : LockId}

/-- A move adds at most one answer. -/
lemma Step.exists_returns (h : Step sys sys') : ∃ new, sys'.returns = new ++ sys.returns := by
  obtain ⟨eligible, m, hm⟩ := h
  cases m with
  | call a op =>
    obtain ⟨-, hm⟩ := Option.ite_none_right_eq_some.mp hm
    obtain ⟨o, -, rfl⟩ := Option.map_eq_some_iff.mp hm
    exact ⟨_, returns_apply sys a op o⟩
  | advance =>
    cases hinside : sys.inside with
    | none => simp [move?, hinside] at hm
    | some a =>
      simp only [move?, hinside] at hm
      obtain ⟨call, -, rfl⟩ := Option.map_eq_some_iff.mp hm
      exact ⟨_, returns_apply sys a call.operation _⟩
  | enter a =>
    obtain ⟨-, hm⟩ := Option.ite_none_right_eq_some.mp hm
    cases hm
    exact ⟨[], rfl⟩
  | newLock =>
    obtain ⟨-, hm⟩ := Option.ite_none_right_eq_some.mp hm
    cases hm
    exact ⟨[], rfl⟩
  | dropLock m =>
    obtain ⟨-, hm⟩ := Option.ite_none_right_eq_some.mp hm
    cases hm
    exact ⟨[], rfl⟩

/-- Answers that were given stay. -/
lemma Path.exists_returns (h : Path sys sys') : ∃ new, sys'.returns = new ++ sys.returns := by
  induction h with
  | refl => exact ⟨[], rfl⟩
  | tail _ hs ih =>
    obtain ⟨new, hnew⟩ := ih
    obtain ⟨new', hnew'⟩ := hs.exists_returns
    exact ⟨new' ++ new, by rw [hnew', hnew, List.append_assoc]⟩

end System

/-- An answer that tells the thread `t` that it released the lock `l`. -/
lemma Return.eq_of_releaser? {r : Return} {t : ThreadId} {l : LockId}
    (h : r.releaser? l = some t) : r = ⟨.unit t, .unlock l, .done⟩ := by
  obtain ⟨agent, op, reply⟩ := r
  simp only [Return.releaser?, Option.ite_none_right_eq_some] at h
  obtain ⟨⟨rfl, rfl⟩, ht⟩ := h
  cases agent with
  | unit u =>
    cases ht
    rfl
  | client n => cases ht

/-- Between two grants of a lock the first of the two threads was told that it released it. -/
lemma released_between_grants {c : Config} {sys mid last : System} {l : LockId} {t u : ThreadId}
    {rest : List ThreadId} (h : System.Reachable c sys) (hs : System.Step sys mid)
    (hfirst : mid.grants l = sys.grants l ++ [t]) (hpath : System.Path mid last)
    (hsecond : last.grants l = mid.grants l ++ u :: rest) :
    ∃ new, last.returns = new ++ mid.returns ∧ ⟨.unit t, .unlock l, .done⟩ ∈ new := by
  have hmid := h.step hs
  obtain ⟨o, howned⟩ := Owned.of_reachable h l
  have hinv := Invariant.of_reachable h
  obtain ⟨o', hafter, hgranted⟩ := howned.step hinv hs
  obtain rfl := hgranted t hfirst
  obtain ⟨o'', hlast⟩ := Owned.of_reachable (hmid.path hpath) l
  obtain ⟨new, hnew⟩ := hpath.exists_returns
  -- Whoever released the lock since then are all threads that were granted it, the owner excepted.
  have hreleasers : last.releasers l =
      mid.releasers l ++ new.reverse.filterMap (Return.releaser? l) := by
    rw [System.releasers, hnew, List.reverse_append, List.filterMap_append]
    rfl
  have heq : new.reverse.filterMap (Return.releaser? l) ++ o''.toList = t :: u :: rest := by
    have hgrants := hlast.grants
    rw [hsecond, hafter.grants, hreleasers, List.append_assoc, List.append_assoc] at hgrants
    exact (List.append_cancel_left hgrants).symm
  have hmem : t ∈ new.reverse.filterMap (Return.releaser? l) := by
    cases hrel : new.reverse.filterMap (Return.releaser? l) with
    | nil => cases o'' <;> simp [hrel] at heq
    | cons v vs =>
      rw [hrel] at heq
      exact List.cons_eq_cons.mp heq |>.1 ▸ List.mem_cons_self
  obtain ⟨r, hr, hrt⟩ := List.mem_filterMap.mp hmem
  exact ⟨new, hnew, Return.eq_of_releaser? hrt ▸ List.mem_reverse.mp hr⟩

/-- The lock of an operation that returns exists. -/
lemma lock_isSome_of_answer {sys sys' : System} {a : Agent} {op : Operation} {reply : Reply}
    {l : LockId} (h : Invariant sys) (hs : System.Step sys sys')
    (hreturns : sys'.returns = ⟨a, op, reply⟩ :: sys.returns) (hl : l ∈ op.locks) :
    (sys'.state.lock? l).isSome := by
  have hanswer : ∀ {b : Agent} {op' : Operation} {out : Outcome}, sys' = sys.apply b op' out →
      op' = op := by
    rintro b op' out rfl
    rw [System.returns_apply] at hreturns
    cases out with
    | reply s r =>
      obtain ⟨hhead, -⟩ := List.cons_eq_cons.mp hreturns
      cases hhead
      rfl
    | _ => exact absurd hreturns.symm (List.cons_ne_self _ _)
  obtain ⟨eligible, m, hm⟩ := hs
  cases h.transition hm with
  | call b op' out hinside hidle halive hlocks ho =>
    obtain rfl := hanswer rfl
    rw [System.state_apply, ho.lock?_isSome]
    exact hlocks l hl
  | stretch t op' ph out hinside hcall hop ho =>
    obtain rfl := hanswer rfl
    obtain ⟨-, -, -, -, hlocks⟩ := (hcall ▸ h.placed (.unit t)).of_thread
    rw [System.state_apply, ho.lock?_isSome]
    exact hlocks l (hop ▸ hl)
  | intake b op' p out hinside hcall ho =>
    obtain rfl := hanswer rfl
    obtain ⟨hop, -⟩ := (hcall ▸ h.placed b).of_submission
    cases op' <;> cases hop <;> cases hl
  | enter | newLock | dropLock => exact absurd hreturns.symm (List.cons_ne_self _ _)

/-- At most one thread holds a lock, and it is the recorded owner; whoever is told that it acquired
the lock owns it at that moment; and between two grants of the lock the first of the two threads
released it. -/
theorem mutual_exclusion {c : Config} {sys : System} (h : System.Reachable c sys) (l : LockId) :
    (∀ t u, sys.Holds t l → sys.Holds u l → t = u) ∧
    (∀ t k, sys.Holds t l → sys.state.lock? l = some k → k.owner = some t) ∧
    (∀ sys' t, System.Step sys sys' →
      sys'.returns = ⟨.unit t, .lock l, .done⟩ :: sys.returns →
        ∃ k, sys'.state.lock? l = some k ∧ k.owner = some t) ∧
    (∀ mid last t u rest, System.Step sys mid → mid.grants l = sys.grants l ++ [t] →
      System.Path mid last → last.grants l = mid.grants l ++ u :: rest →
        ∃ new, last.returns = new ++ mid.returns ∧ ⟨.unit t, .unlock l, .done⟩ ∈ new) := by
  obtain ⟨o, howned⟩ := Owned.of_reachable h l
  refine ⟨fun t u ht hu => ?_, fun t k ht hk => ?_, fun sys' t hs hreturns => ?_,
    fun mid last t u rest hs hfirst hpath hsecond =>
      released_between_grants h hs hfirst hpath hsecond⟩
  · exact Option.some_inj.mp ((howned.holder t ht).symm.trans (howned.holder u hu))
  · exact (howned.owner k hk).trans (howned.holder t ht)
  · obtain ⟨o', howned'⟩ := Owned.of_reachable (h.step hs) l
    have hholds : sys'.Holds t l := (Owned.holds_cons hreturns).mpr (by simp [Return.concerns])
    have hsome := lock_isSome_of_answer (Invariant.of_reachable h) hs hreturns
      (List.mem_singleton.mpr rfl)
    obtain ⟨k, hk⟩ := Option.isSome_iff_exists.mp hsome
    exact ⟨k, hk, (howned'.owner k hk).trans (howned'.holder t hholds)⟩

/-! ### A lock that is handed over -/

/-- A scheduler for rounds of two primaries with one step each. -/
def pairConfig : Config := { primaries := 2 }

/-- The moves up to the point where the first of two threads is about to acquire the only lock. -/
def beforeGrant : List Move :=
  [.newLock, .call (.client 0) (.submit .noop), .advance, .advance,
    .call (.client 0) (.submit .noop), .advance, .advance,
    .call (.unit ⟨0⟩) (.lock ⟨0⟩), .advance, .advance, .advance, .advance]

/-- The moves by which the second thread joins the queue, is handed the lock, and learns of it. -/
def handOverMoves : List Move :=
  [.call (.unit ⟨1⟩) (.lock ⟨0⟩), .advance, .advance, .advance, .advance,
    .call (.unit ⟨0⟩) (.unlock ⟨0⟩), .enter (.unit ⟨1⟩), .advance]

/-- After the hand-over the second thread alone holds the lock, because the first one released it
after it was granted the lock. -/
theorem mutual_exclusion_after_handOver :
    ∃ sys mid last, System.run? pairConfig (fun _ => true) beforeGrant = some sys ∧
      System.Step sys mid ∧ mid.follow? (fun _ => true) handOverMoves = some last ∧
      last.Holds ⟨1⟩ ⟨0⟩ ∧ (∀ t, last.Holds t ⟨0⟩ → t = ⟨1⟩) ∧
      ∃ new, last.returns = new ++ mid.returns ∧ ⟨.unit ⟨0⟩, .unlock ⟨0⟩, .done⟩ ∈ new := by
  obtain ⟨sys, mid, last, hsys, hmove, hlast, hholds, hfirst, hsecond⟩ : ∃ sys mid last,
      System.run? pairConfig (fun _ => true) beforeGrant = some sys ∧
      sys.move? (fun _ => true) .advance = some mid ∧
      mid.follow? (fun _ => true) handOverMoves = some last ∧
      last.returns.find? (Return.concerns ⟨1⟩ ⟨0⟩) = some ⟨.unit ⟨1⟩, .lock ⟨0⟩, .done⟩ ∧
      mid.grants ⟨0⟩ = sys.grants ⟨0⟩ ++ [⟨0⟩] ∧ last.grants ⟨0⟩ = mid.grants ⟨0⟩ ++ [⟨1⟩] :=
    ⟨_, _, _, rfl, rfl, rfl, rfl, rfl, rfl⟩
  have hreach := System.reachable_of_run? hsys
  have hs : System.Step sys mid := ⟨_, _, hmove⟩
  have hpath := System.path_of_follow? hlast
  have hmutex := mutual_exclusion ((hreach.step hs).path hpath) ⟨0⟩
  have hheld : last.Holds ⟨1⟩ ⟨0⟩ := ⟨_, hholds, rfl⟩
  exact ⟨sys, mid, last, hsys, hs, hlast, hheld, fun t ht => hmutex.1 t ⟨1⟩ ht hheld,
    (mutual_exclusion hreach ⟨0⟩).2.2.2 mid last ⟨0⟩ ⟨1⟩ [] hs hfirst hpath hsecond⟩

end RoundScheduler
