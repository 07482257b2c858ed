import RoundScheduler.Proofs.LockQueues

/-!
# What the flags of a record mean

Whether a round is over is decided by four flags in the record of each primary and by nothing else.
`State.Seating` says that the flags tell the truth about the total order, and `Placed` at which
places of an operation a thread may have each of them. Put together they exclude one another: a
thread is held up in one way at a time.
-/

namespace RoundScheduler

open State

namespace ThreadRecord

/-- The flags by which a primary does not keep its round open: it is out of steps, it waits for its
turn, it retired, or it is in the queue of a lock. -/
def obstacles (r : ThreadRecord) : List Bool :=
  [r.finished, r.waitingForTurn, r.terminated, r.enqueued.isSome]

variable {r : ThreadRecord}

lemma true_mem_obstacles : true ∈ r.obstacles ↔
    r.finished = true ∨ r.waitingForTurn = true ∨ r.terminated = true ∨ r.enqueued ≠ none := by
  rw [← Option.isSome_iff_ne_none]
  simp only [obstacles, List.mem_cons, List.not_mem_nil, or_false, eq_comm (a := true)]

/-- Flags that exclude one another are set one at a time. -/
lemma count_obstacles_le_one
    (hfinished : r.finished = true → r.waitingForTurn = false ∧ r.enqueued = none)
    (hwaiting : r.waitingForTurn = true → r.enqueued = none)
    (hterminated : r.terminated = true →
      r.finished = false ∧ r.waitingForTurn = false ∧ r.enqueued = none) :
    r.obstacles.count true ≤ 1 := by
  have hbits : ∀ f w t q : Bool, (f = true → w = false ∧ q = false) → (w = true → q = false) →
      (t = true → f = false ∧ w = false ∧ q = false) → [f, w, t, q].count true ≤ 1 := by decide
  have hqueued : r.enqueued = none ↔ r.enqueued.isSome = false := by simp
  rw [hqueued] at hfinished hwaiting hterminated
  exact hbits _ _ _ _ hfinished hwaiting hterminated

end ThreadRecord

/-! ### The places of a thread that is held up -/

/-- Whoever retired is not where the other flags belong. -/
lemma Phase.of_leaving {ph : Phase} (h : ph.leaving = true) :
    ph.endsRound = false ∧ ph.awaitsTurn = false ∧ ph.queue? = none := by
  cases ph with
  | check k => cases k <;> first | exact ⟨rfl, rfl, rfl⟩ | cases h
  | fill index plan k => exact ⟨rfl, rfl, rfl⟩
  | _ => cases h

/-- Whoever waits for the end of the round does not wait for its turn. -/
lemma Phase.awaitsTurn_of_endsRound {ph : Phase} (h : ph.endsRound = true) :
    ph.awaitsTurn = false := by
  cases ph with
  | check k => cases k <;> first | rfl | cases h
  | awaitRoundEnd p => rfl
  | _ => cases h

namespace Invariant

variable {sys : System} {t : ThreadId} {r : ThreadRecord}

/-- The flags of a thread agree with its place. -/
lemma poised (h : Invariant sys) (t : ThreadId) : sys.state.Poised t (sys.phase? (.unit t)) :=
  (h.placed (.unit t)).poised

/-- A thread that retired is in no operation, or on its way out of the last one. -/
lemma unflagged_of_terminated (h : Invariant sys) (hr : sys.state.record? t = some r)
    (hterminated : r.terminated = true) : sys.state.Unflagged t := by
  have hdead : ¬ sys.state.isAlive t = true := by simp [isAlive, hr, hterminated]
  have hpoised := h.poised t
  cases hph : sys.phase? (.unit t) with
  | none =>
    rw [hph] at hpoised
    exact hpoised.unflagged rfl rfl rfl
  | some ph =>
    have hplaced := h.call_of_phase hph ▸ h.placed (.unit t)
    have hleaving : ph.leaving = true := Bool.not_eq_false _ ▸ mt hplaced.alive hdead
    obtain ⟨hends, hawaits, hqueue⟩ := Phase.of_leaving hleaving
    rw [hph] at hpoised
    exact hpoised.unflagged hends hawaits hqueue

/-- A thread that is out of steps stands where the round ends, so it does not wait for its turn. -/
lemma not_waiting_of_finished (h : Invariant sys) (hf : sys.state.isFinished t = true) :
    sys.state.isWaiting t = false := by
  have hpoised := h.poised t
  have hends := hpoised.finished hf
  refine hpoised.not_waiting ?_
  cases hph : sys.phase? (.unit t) with
  | none => rfl
  | some ph =>
    rw [hph] at hends
    exact Phase.awaitsTurn_of_endsRound hends

/-- A thread is held up in one way at a time. -/
lemma count_obstacles_le_one (h : Invariant sys) (hr : sys.state.record? t = some r) :
    r.obstacles.count true ≤ 1 := by
  have hunlinked : r.finished = true ∨ r.waitingForTurn = true → r.enqueued = none := by
    intro hflag
    refine Option.eq_none_iff_forall_ne_some.mpr fun l hl => ?_
    obtain ⟨-, r', hr', -, -, hw, hf⟩ :=
      h.record_of_linked (linkOf?_eq_some_iff.mpr ⟨r, hr, hl⟩)
    cases hr.symm.trans hr'
    simp [hw, hf] at hflag
  refine ThreadRecord.count_obstacles_le_one (fun hfinished => ?_)
    (fun hwaiting => hunlinked (.inr hwaiting)) fun hterminated => ?_
  · have hawake := h.not_waiting_of_finished (t := t) (by simpa [isFinished, hr] using hfinished)
    exact ⟨by simpa [isWaiting, hr] using hawake, hunlinked (.inl hfinished)⟩
  · have hflags := h.unflagged_of_terminated hr hterminated
    exact ⟨by simpa [isFinished, hr] using hflags.finished,
      by simpa [isWaiting, hr] using hflags.waiting, by simpa [linkOf?, hr] using hflags.linked⟩

end Invariant

/-! ### Flags and the total order -/

namespace State.Seating

variable {s : State} {t : ThreadId} {r : ThreadRecord}

lemma primary_of_obstacle (h : Seating s) (hr : s.record? t = some r)
    (hobstacle : true ∈ r.obstacles) : r.primary = true :=
  (h.truthful t r hr).primary (ThreadRecord.true_mem_obstacles.mp hobstacle)

/-- A thread that is held up sits at a slot. -/
lemma exists_slot_of_obstacle (h : Seating s) (hr : s.record? t = some r)
    (hobstacle : true ∈ r.obstacles) :
    ∃ slot, s.slotOf? t = some slot ∧ s.primaries[slot]? = some t := by
  have hmem := (h.primary_of_mem hr).mp (h.primary_of_obstacle hr hobstacle)
  obtain ⟨slot, hslot⟩ := exists_slot hmem
  exact ⟨slot, hslot, h.slotOf?_eq_some_iff.mp hslot⟩

/-- The next step belongs to somebody else than a thread that waits for its turn. -/
lemma exists_next_of_waiting (h : Seating s) (hr : s.record? t = some r)
    (hwaiting : r.waitingForTurn = true) :
    ∃ slot next, s.slotOf? t = some slot ∧ slot ∈ s.live.order ∧ s.live.head? = some next ∧
      next ≠ slot := by
  obtain ⟨slot, hslot, hseat⟩ := h.exists_slot_of_obstacle hr
    (ThreadRecord.true_mem_obstacles.mpr (.inr (.inl hwaiting)))
  obtain ⟨hin, hother⟩ := (h.truthful t r hr).waiting slot hseat hwaiting
  cases horder : s.live.order with
  | nil => simp [horder] at hin
  | cons next rest =>
    have hhead : s.live.order.head? = some next := by rw [horder, List.head?_cons]
    exact ⟨slot, next, hslot, horder ▸ hin, hhead, fun heq => hother (heq ▸ hhead)⟩

end State.Seating

/-- What the flags of a record mean, at every moment and so whenever the critical section is free.
At most one of them is set, and only for primaries; the primaries are those of whom the record says
so, each has one slot, and there are no more of them than slots. Whoever is out of steps or retired
has no step left; whoever waits for its turn has one, and the next one belongs to another slot; and
the total order speaks of slots of the round only. -/
theorem progress_flags_truthful {c : Config} {sys : System} (h : System.Reachable c sys) :
    (∀ t r, sys.state.record? t = some r →
      r.obstacles.count true ≤ 1 ∧ (true ∈ r.obstacles → r.primary = true) ∧
      (r.primary = true ↔ t ∈ sys.state.primaries) ∧
      (r.finished = true → ∃ slot, sys.state.slotOf? t = some slot ∧
        slot ∉ sys.state.live.order) ∧
      (r.waitingForTurn = true → ∃ slot next, sys.state.slotOf? t = some slot ∧
        slot ∈ sys.state.live.order ∧ sys.state.live.head? = some next ∧ next ≠ slot) ∧
      (r.terminated = true → ∃ slot, sys.state.slotOf? t = some slot ∧
        slot ∉ sys.state.live.order)) ∧
    (∀ t ∈ sys.state.primaries, (sys.state.record? t).isSome) ∧
    sys.state.primaries.Nodup ∧
    sys.state.primaries.length ≤ sys.state.live.primaries ∧
    ∀ slot ∈ sys.state.live.order, slot < sys.state.live.primaries := by
  have hinv := Invariant.of_reachable h
  have hseating := hinv.sound.seating
  refine ⟨fun t r hr => ?_, fun t ht => hseating.isSome_of_mem ht, hseating.nodup,
    hseating.length_le, hseating.bounded⟩
  have htrue := hseating.truthful t r hr
  refine ⟨hinv.count_obstacles_le_one hr, hseating.primary_of_obstacle hr,
    hseating.primary_of_mem hr, fun hfinished => ?_, hseating.exists_next_of_waiting hr,
    fun hterminated => ?_⟩
  · obtain ⟨slot, hslot, hseat⟩ := hseating.exists_slot_of_obstacle hr
      (ThreadRecord.true_mem_obstacles.mpr (.inl hfinished))
    exact ⟨slot, hslot, htrue.finished slot hseat hfinished⟩
  · obtain ⟨slot, hslot, hseat⟩ := hseating.exists_slot_of_obstacle hr
      (ThreadRecord.true_mem_obstacles.mpr (.inr (.inr (.inl hterminated))))
    exact ⟨slot, hslot, htrue.terminated slot hseat hterminated⟩

/-! ### One thread of each kind -/

/-- The moves by which the first of five threads acquires a lock and runs out of steps, the second
one asks for the lock, the fourth one waits for its turn and the fifth one retires. The third one
has the next step. -/
def oneOfEach : List Move :=
  (.newLock :: (List.replicate 5
    [.call (.client 0) (.submit .noop), .advance, .advance]).flatten) ++
  (.call (.unit ⟨0⟩) (.lock ⟨0⟩) :: List.replicate 8 .advance) ++
  (.call (.unit ⟨1⟩) (.lock ⟨0⟩) :: List.replicate 4 .advance) ++
  (.call (.unit ⟨0⟩) .turn :: List.replicate 4 .advance) ++
  (.call (.unit ⟨3⟩) .turn :: List.replicate 4 .advance) ++
  (.call (.unit ⟨4⟩) .retire :: List.replicate 3 .advance)

/-- Each of the four flags is set for one of the threads, and means what it says. -/
theorem progress_flags_truthful_oneOfEach :
    ∃ sys, System.run? { primaries := 5 } (fun _ => true) oneOfEach = some sys ∧
      sys.inside = none ∧ sys.state.live = ⟨5, [2, 3]⟩ ∧
      sys.state.record? ⟨0⟩ = some { started := true, primary := true, finished := true } ∧
      (∃ slot, sys.state.slotOf? ⟨0⟩ = some slot ∧ slot ∉ sys.state.live.order) ∧
      sys.state.record? ⟨1⟩ = some { started := true, primary := true, enqueued := some ⟨0⟩ } ∧
      ⟨1⟩ ∈ sys.state.primaries ∧
      sys.state.record? ⟨3⟩ = some { started := true, primary := true, waitingForTurn := true } ∧
      (∃ slot next, sys.state.slotOf? ⟨3⟩ = some slot ∧ slot ∈ sys.state.live.order ∧
        sys.state.live.head? = some next ∧ next ≠ slot) ∧
      sys.state.record? ⟨4⟩ = some { started := true, primary := true, terminated := true } ∧
      (∃ slot, sys.state.slotOf? ⟨4⟩ = some slot ∧ slot ∉ sys.state.live.order) := by
  obtain ⟨sys, hrun, hfree, hlive, hfinished, hqueued, hwaiting, hretired⟩ : ∃ sys,
      System.run? { primaries := 5 } (fun _ => true) oneOfEach = some sys ∧
      sys.inside = none ∧ sys.state.live = ⟨5, [2, 3]⟩ ∧
      sys.state.record? ⟨0⟩ = some { started := true, primary := true, finished := true } ∧
      sys.state.record? ⟨1⟩ = some { started := true, primary := true, enqueued := some ⟨0⟩ } ∧
      sys.state.record? ⟨3⟩ = some { started := true, primary := true, waitingForTurn := true } ∧
      sys.state.record? ⟨4⟩ = some { started := true, primary := true, terminated := true } :=
    ⟨_, rfl, rfl, rfl, rfl, rfl, rfl, rfl⟩
  obtain ⟨hflags, -⟩ := progress_flags_truthful (System.reachable_of_run? hrun)
  obtain ⟨-, -, -, hspent, -, -⟩ := hflags _ _ hfinished
  obtain ⟨-, hneeded, hmember, -, -, -⟩ := hflags _ _ hqueued
  obtain ⟨-, -, -, -, hnext, -⟩ := hflags _ _ hwaiting
  obtain ⟨-, -, -, -, -, hstripped⟩ := hflags _ _ hretired
  exact ⟨sys, hrun, hfree, hlive, hfinished, hspent rfl, hqueued, hmember.mp (hneeded (by decide)),
    hwaiting, hnext rfl, hretired, hstripped rfl⟩

end RoundScheduler
