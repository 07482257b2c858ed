import RoundScheduler.Proofs.Invariant

/-!
# Who waits in the queue of a lock

That a thread waits for a lock is written down twice, in the queue of the lock and in the record of
the thread, and both are changed by the thread itself, by whoever releases the lock, by outsiders
who take it out of the queue, and by whoever closes the round. `State.Queues` says that the two
sides agree, and `Placed` where a thread in a queue may stand. What is missing for the whole picture
is that nobody leaves the critical section except at a wait.
-/

namespace RoundScheduler

open State

/-- Whether a thread can stand at the place outside of the critical section. -/
def Phase.isWait : Phase → Bool
  | enter _ | check _ | enterRetirement => false
  | _ => true

/-- Nobody sleeps at a place that is no wait. -/
lemma Stretch.isWait {eligible : ThreadId → Bool} {s : State} {t : ThreadId} {ph : Phase}
    (h : Stretch eligible s t ph .sleep) : ph.isWait = true := by
  cases h <;> rfl

/-- Whoever stands at a place that is no wait is inside the critical section. -/
def Resting (sys : System) : Prop :=
  ∀ a ph, sys.phase? a = some ph → ph.isWait = false → sys.inside = some a

namespace Resting

variable {c : Config} {sys sys' : System} {a : Agent}

/-- Nobody is between two waits while the critical section is free. -/
lemma isWait (h : Resting sys) (hinside : sys.inside = none) {ph : Phase}
    (hph : sys.phase? a = some ph) : ph.isWait = true := by
  cases hwait : ph.isWait with
  | true => rfl
  | false => cases (h a ph hph hwait).symm.trans hinside

/-- What an agent does keeps the agreement if it goes on inside or sleeps at a wait. -/
lemma apply (h : Resting sys) {op : Operation} {o : Outcome} {call? : Option Call}
    (hinside : ∀ b, sys.inside = some b → b = a) (hcall : sys.calls.get? a = call?)
    (hwait : ∀ ph, ((o.call? call? op).bind fun call => call.point.phase?) = some ph →
      ph.isWait = false → o.inside? a = some a) : Resting (sys.apply a op o) := by
  intro b ph hph hb
  rw [System.phase?_apply hcall] at hph
  rw [System.inside_apply]
  split at hph
  · next hba => exact hba ▸ hwait ph hph hb
  · next hba => exact absurd (hinside b (h b ph hph hb)) hba

/-- Every move keeps the agreement. -/
theorem step (h : Resting sys) (hinv : Invariant sys) (hs : System.Step sys sys') :
    Resting sys' := by
  obtain ⟨eligible, m, hm⟩ := hs
  cases hinv.transition hm with
  | call a op o hinside hidle halive hlocks ho =>
    refine h.apply (fun b hb => by cases hb.symm.trans hinside) hidle fun ph hph _ => ?_
    cases ho <;> first | rfl | cases hph
  | stretch t op ph o hinside hcall hop ho =>
    refine h.apply (fun b hb => Option.some_inj.mp (hb.symm.trans hinside)) hcall
      fun ph' hph' hwait => ?_
    cases o with
    | sleep =>
      cases hph'
      simp [ho.isWait] at hwait
    | goto s p => rfl
    | pause s p => cases ho
    | reply s r => cases hph'
  | intake a op p o hinside hcall ho =>
    refine h.apply (fun b hb => Option.some_inj.mp (hb.symm.trans hinside)) hcall
      fun ph hph _ => ?_
    cases ho <;> cases hph
  | enter a call hinside =>
    intro b ph hph hb
    cases (h b ph hph hb).symm.trans hinside
  | newLock => exact h
  | dropLock => exact h

/-- The agreement holds of every system that can be reached. -/
theorem of_reachable (h : System.Reachable c sys) : Resting sys := by
  induction h using System.Reachable.induction with
  | initial sys hstart =>
    obtain ⟨rounds, -, rfl⟩ := Invariant.exists_rounds_of_initial hstart
    exact fun _ _ hph => by cases hph
  | step sys sys' hreach hs ih => exact ih.step (.of_reachable hreach) hs

end Resting

/-! ### Threads in queues -/

namespace System

/-- A thread is inside the operation that asks for a lock: asleep until it is woken, or, having just
joined the queue, about to look whether the round is over. -/
def IsBlockedOn (sys : System) (t : ThreadId) (l : LockId) : Prop :=
  ∃ ph, sys.calls.get? (.unit t) = some ⟨.lock l, .thread t ph⟩ ∧
    ((ph = .awaitHandOver l ∧ ∀ eligible, sys.canProceed eligible (.unit t) = false) ∨
      (ph = .check (.awaitHandOver l) ∧ sys.inside = some (.unit t)))

end System

namespace Invariant

variable {sys : System} {t : ThreadId} {l : LockId}

/-- A thread in the queue of a lock cannot go on from where it waits. -/
lemma canProceed_of_linked (h : Invariant sys) (hlink : sys.state.linkOf? t = some l)
    (hcall : sys.calls.get? (.unit t) = some ⟨.lock l, .thread t (.awaitHandOver l)⟩)
    (eligible : ThreadId → Bool) : sys.canProceed eligible (.unit t) = false := by
  obtain ⟨r, hr, hqueued⟩ := linkOf?_eq_some_iff.mp hlink
  obtain ⟨k, hk, hmem⟩ := (h.sound.queues.linked t l).mp hlink
  have howner : k.owner ≠ some t := fun howner =>
    h.sound.queues.not_queued l k t hk howner hmem
  have hsleep : sys.outcome eligible ⟨.lock l, .thread t (.awaitHandOver l)⟩ = .sleep := by
    simp [System.outcome, Point.step, Phase.step, withLock, hk, howner, withRecord, hr, hqueued]
  simp [System.canProceed, hcall, hsleep, Outcome.isSleep]

lemma isBlockedOn_of_linked (h : Invariant sys) (hresting : Resting sys)
    (hlink : sys.state.linkOf? t = some l) : sys.IsBlockedOn t l := by
  have hqueue := (h.placed (.unit t)).poised.linked l hlink
  obtain ⟨ph, hph, hl⟩ := Option.bind_eq_some_iff.mp hqueue
  have hcall := h.call_of_phase hph
  rw [Phase.operation_of_queue? hl] at hcall
  refine ⟨ph, hcall, ?_⟩
  cases ph with
  | awaitHandOver m =>
    cases hl
    exact .inl ⟨rfl, h.canProceed_of_linked hlink hcall⟩
  | check k =>
    cases k <;> cases hl
    exact .inr ⟨rfl, hresting (.unit t) _ hph rfl⟩
  | _ => cases hl

/-- A thread in the queue of a lock has no other flag than that of a primary. -/
lemma record_of_linked (h : Invariant sys) (hlink : sys.state.linkOf? t = some l) :
    t ∈ sys.state.primaries ∧ ∃ r, sys.state.record? t = some r ∧ r.primary = true ∧
      r.terminated = false ∧ r.waitingForTurn = false ∧ r.finished = false := by
  obtain ⟨r, hr, hqueued⟩ := linkOf?_eq_some_iff.mp hlink
  have hprimary := (h.sound.seating.truthful t r hr).primary (by simp [hqueued])
  have hmem := (h.sound.seating.primary_of_mem hr).mp hprimary
  have hpoised := (h.placed (.unit t)).poised
  obtain ⟨ph, hph, hl⟩ := Option.bind_eq_some_iff.mp (hpoised.linked l hlink)
  have hcall := h.call_of_phase hph
  have hflags : ph.endsRound = false ∧ ph.awaitsTurn = false ∧ ph.leaving = false := by
    cases ph with
    | awaitHandOver m => exact ⟨rfl, rfl, rfl⟩
    | check k =>
      cases k <;> cases hl
      exact ⟨rfl, rfl, rfl⟩
    | _ => cases hl
  obtain ⟨hends, hawaits, hleaving⟩ := hflags
  have halive := (hcall ▸ h.placed (.unit t)).alive hleaving
  obtain ⟨r', hr', -, hterminated⟩ := exists_record_of_isAlive halive
  obtain rfl : r = r' := Option.some_inj.mp (hr.symm.trans hr')
  rw [show (sys.calls.get? (.unit t)).bind (fun call => call.point.phase?) = some ph from hph]
    at hpoised
  have hfinished := hpoised.not_finished hends
  have hwaiting := hpoised.not_waiting hawaits
  refine ⟨hmem, r, hr, hprimary, hterminated, ?_, ?_⟩
  · simpa [isWaiting, hr] using hwaiting
  · simpa [isFinished, hr] using hfinished

end Invariant

/-- The queues of locks and the links of threads agree at every moment. Nobody is in a queue twice;
a lock that is waited for has an owner, who does not wait for it; whoever waits is a primary of the
current round that has not retired, is neither finished nor told to wait for its turn, and is
blocked in the operation that asks for the lock; so nobody waits who is no primary. -/
theorem lock_queues_agree {c : Config} {sys : System} (h : System.Reachable c sys) :
    (∀ l t, (∃ k, sys.state.lock? l = some k ∧ t ∈ k.queue) ↔ sys.state.linkOf? t = some l) ∧
    (∀ l k, sys.state.lock? l = some k → k.queue.Nodup ∧
      (k.queue ≠ [] → ∃ owner, k.owner = some owner ∧ owner ∉ k.queue)) ∧
    (∀ l k t, sys.state.lock? l = some k → t ∈ k.queue →
      t ∈ sys.state.primaries ∧
      (∃ r, sys.state.record? t = some r ∧ r.primary = true ∧ r.terminated = false ∧
        r.waitingForTurn = false ∧ r.finished = false) ∧
      sys.IsBlockedOn t l) ∧
    ∀ t, t ∉ sys.state.primaries → sys.state.linkOf? t = none ∧
      ∀ l k, sys.state.lock? l = some k → t ∉ k.queue := by
  have hinv := Invariant.of_reachable h
  have hqueues := hinv.sound.queues
  have hlinked : ∀ l k t, sys.state.lock? l = some k → t ∈ k.queue →
      sys.state.linkOf? t = some l := fun l k t hk ht => (hqueues.linked t l).mpr ⟨k, hk, ht⟩
  refine ⟨fun l t => (hqueues.linked t l).symm, fun l k hk => ⟨hqueues.nodup l k hk, fun hne => ?_⟩,
    fun l k t hk ht => ?_, fun t ht => ?_⟩
  · obtain ⟨owner, howner⟩ := Option.ne_none_iff_exists'.mp (mt (hqueues.owned l k hk) hne)
    exact ⟨owner, howner, hqueues.not_queued l k owner hk howner⟩
  · have hlink := hlinked l k t hk ht
    obtain ⟨hmem, hrecord⟩ := hinv.record_of_linked hlink
    exact ⟨hmem, hrecord, hinv.isBlockedOn_of_linked (.of_reachable h) hlink⟩
  · have hnone : ∀ l, sys.state.linkOf? t ≠ some l := fun l hlink =>
      ht (hinv.record_of_linked hlink).1
    exact ⟨Option.eq_none_iff_forall_ne_some.mpr hnone,
      fun l k hk hmem => hnone l (hlinked l k t hk hmem)⟩

/-! ### A queue of one -/

/-- The moves by which the first of two threads acquires a lock and the second one asks for it and
falls asleep. -/
def secondInQueue : List Move :=
  [.call (.client 0) (.submit .noop), .advance, .advance,
    .call (.client 0) (.submit .noop), .advance, .advance, .newLock,
    .call (.unit ⟨0⟩) (.lock ⟨0⟩), .advance, .advance, .advance, .advance, .advance,
    .call (.unit ⟨1⟩) (.lock ⟨0⟩), .advance, .advance, .advance, .advance]

/-- The second thread is linked to the lock that the first one owns, and it is blocked. -/
theorem lock_queues_agree_secondInQueue :
    ∃ sys, System.run? { primaries := 2 } (fun _ => true) secondInQueue = some sys ∧
      sys.state.lock? ⟨0⟩ = some { owner := some ⟨0⟩, queue := [⟨1⟩] } ∧
      sys.state.linkOf? ⟨1⟩ = some ⟨0⟩ ∧ ⟨1⟩ ∈ sys.state.primaries ∧
      sys.IsBlockedOn ⟨1⟩ ⟨0⟩ := by
  obtain ⟨sys, hrun, hlock⟩ : ∃ sys,
      System.run? { primaries := 2 } (fun _ => true) secondInQueue = some sys ∧
      sys.state.lock? ⟨0⟩ = some { owner := some ⟨0⟩, queue := [⟨1⟩] } := ⟨_, rfl, rfl⟩
  obtain ⟨hlinks, -, hqueued, -⟩ := lock_queues_agree (System.reachable_of_run? hrun)
  obtain ⟨hprimary, -, hblocked⟩ := hqueued ⟨0⟩ _ ⟨1⟩ hlock (by simp)
  exact ⟨sys, hrun, hlock, (hlinks ⟨0⟩ ⟨1⟩).mp ⟨_, hlock, by simp⟩, hprimary, hblocked⟩

end RoundScheduler
