import RoundScheduler.Proofs.Spin.Settling

/-!
# The treadmill of a captive

A captive closes the round, begins the next one, chooses itself as the only primary, finds that it
is in no queue any more, takes the only step to ask for the lock again, and stands in the queue as
before. `Captivity` lists the places of this lap. Each of them leads to the next one, so that the
critical section is never free again.
-/

namespace RoundScheduler

open State

namespace State

variable {eligible : ThreadId → Bool} {s : State} {t : ThreadId} {l : LockId} {index : Nat}

/-- The places of a captive, and how far it is with its round. -/
inductive Captivity (eligible : ThreadId → Bool) (t : ThreadId) (l : LockId) (s : State) :
    Phase → Prop
  /-- It is in the queue, and about to close the round. -/
  | ending (hfull : s.live.primaries ≤ s.primaries.length)
    (hstuck : ∀ u ∈ s.primaries, s.canProgress u = false) :
    Captivity eligible t l s (.check (.awaitHandOver l))
  /-- It looks for the primary of the next round. -/
  | filling (index : Nat) (plan : RoundConfig) (hfresh : s.Fresh eligible index) :
    Captivity eligible t l s (.fill index plan (.recheck (.awaitHandOver l)))
  /-- It is the primary, and about to look whether the new round is over. -/
  | looking (index : Nat) (hfresh : s.Fresh eligible index) (hlist : s.primaries = [t]) :
    Captivity eligible t l s (.check (.awaitHandOver l))
  /-- It would sleep if it were still in the queue. -/
  | waiting (index : Nat) (hfresh : s.Fresh eligible index) (hlist : s.primaries = [t]) :
    Captivity eligible t l s (.awaitHandOver l)
  /-- It begins to ask again. -/
  | entering (index : Nat) (hfresh : s.Fresh eligible index) (hlist : s.primaries = [t]) :
    Captivity eligible t l s (.enter (.lock l))
  /-- It is about to take the step. -/
  | asking (index : Nat) (hfresh : s.Fresh eligible index) (hlist : s.primaries = [t]) :
    Captivity eligible t l s (.awaitPrimary (.lock l))

/-- Whoever is exposed is the only primary of a fresh round that is filled. -/
lemma Exposed.primaries_eq (h : s.Exposed eligible t l) (hs : Sound s)
    (hfresh : s.Fresh eligible index) (hfull : s.live.primaries ≤ s.primaries.length) :
    s.primaries = [t] := by
  have hle := hs.seating.length_le
  rw [hfresh.live, h.alone] at hle hfull
  obtain ⟨u, hu⟩ := List.length_eq_one_iff.mp (Nat.le_antisymm hle hfull)
  obtain ⟨rest, hrest⟩ := hfresh.front
  have hfirst := h.first
  rw [← hrest, hu] at hfirst
  rw [hu, Option.some_inj.mp hfirst]

/-- A round that lacks its primary has not been looked through. -/
lemma Exposed.index_lt (h : s.Exposed eligible t l) (hfresh : s.Fresh eligible index)
    (hlen : s.primaries.length < s.live.primaries) : index < s.threadList.length := by
  rw [hfresh.live, h.alone, Nat.lt_one_iff, List.length_eq_zero_iff] at hlen
  by_contra hindex
  -- Otherwise nobody could be the first who may be chosen.
  have hfirst := h.first
  have hchosen := hfresh.chosen
  rw [hlen, List.take_of_length_le (Nat.le_of_not_lt hindex), ← hfresh.runners_eq] at hchosen
  rw [← hchosen] at hfirst
  cases hfirst

end State

namespace System

variable {eligible : ThreadId → Bool} {sys : System} {t : ThreadId} {l : LockId} {ph : Phase}
  {o : Outcome}

/-- A captive always goes on, and stays one. -/
lemma StandsAt.captivity_goto (h : sys.StandsAt t ph) (hexposed : sys.state.Exposed eligible t l)
    (hc : Captivity eligible t l sys.state ph) (ho : Stretch eligible sys.state t ph o) :
    ∃ s' ph', o = .goto s' (.thread t ph') ∧ Captivity eligible t l s' ph' := by
  have hsound := h.invariant.sound
  obtain ⟨owner, howner, hother⟩ := hexposed.owned
  cases hc with
  | ending hfull hstuck =>
    cases ho with
    | stillOpen _ _ hk hopen =>
      rcases hopen with hlen | ⟨u, hu, hcan⟩
      · exact absurd hfull (Nat.not_le.mpr hlen)
      · exact absurd hcan (by simp [hstuck u hu])
    | closed => exact ⟨_, _, rfl, .filling 0 _ hsound.fresh_nextRound⟩
  | filling index plan hfresh =>
    have hplan := h.filling.primaries
    cases ho with
    | runOut _ _ _ hlen hindex =>
      exact absurd (hexposed.index_lt hfresh (hplan ▸ hlen)) (Nat.not_lt.mpr hindex)
    | skipped _ _ _ u r hlen hu hr hskip =>
      exact ⟨_, _, rfl, .filling (index + 1) plan
        (h.fresh_of_look hfresh (.skipped _ _ _ u r hlen hu hr hskip))⟩
    | chosen _ _ _ u r hlen hu hr hterminated heligible =>
      exact ⟨_, _, rfl, .filling (index + 1) plan
        (h.fresh_of_look hfresh (.chosen _ _ _ u r hlen hu hr hterminated heligible))⟩
    | filled _ _ _ hlen =>
      exact ⟨_, _, rfl, .looking index (hfresh.recordStart plan.order)
        (hexposed.primaries_eq hsound hfresh (hplan ▸ hlen))⟩
  | looking index hfresh hlist =>
    cases ho with
    | stillOpen _ ph' hk =>
      cases hk
      exact ⟨_, _, rfl, .waiting index hfresh hlist⟩
    | closed _ _ hstuck =>
      have hmem : t ∈ sys.state.primaries := by simp [hlist]
      exact absurd (hfresh.awake t hmem) (by simp [hstuck t hmem])
  | waiting index hfresh hlist =>
    cases ho with
    | handed _ k hk hme =>
      have hme := howner.symm.trans (ownerOf?_eq_some_iff.mpr ⟨k, hk, hme⟩)
      exact absurd (Option.some_inj.mp hme) hother
    | sleepInQueue _ k r hk hme hr hqueued =>
      have hlink := (hfresh.unflagged hsound (t := t)).linked
      simp only [linkOf?, hr, Option.bind_some] at hlink
      simp [hlink] at hqueued
    | retry => exact ⟨_, _, rfl, .entering index hfresh hlist⟩
  | entering index hfresh hlist =>
    cases ho with
    | bootstrap _ hround => exact absurd hround hfresh.begun
    | entered => exact ⟨_, _, rfl, .asking index hfresh hlist⟩
  | asking index hfresh hlist =>
    cases ho with
    | sleepForSeat _ hme => exact absurd (by simp [hlist]) hme
    | finished _ slot hslot hout => exact absurd (hfresh.mem_order hsound hslot) hout
    | notNext _ slot hslot hin hhead =>
      have hzero : slot = 0 := hsound.seating.slot_unique hslot (by simp [hlist])
      exact absurd (hfresh.head?_order hsound) (hzero ▸ hhead)
    | granted _ k slot hslot hhead hk hfree =>
      obtain ⟨k', hk', howner⟩ := ownerOf?_eq_some_iff.mp howner
      cases hk.symm.trans hk'
      cases hfree.symm.trans howner
    | queued _ k slot hslot =>
      have hfull : sys.state.live.primaries ≤ sys.state.primaries.length := by
        rw [hfresh.live, hexposed.alone, hlist]
        exact Nat.le_refl _
      obtain ⟨hfull, hstuck⟩ := over_of_queued l slot hsound hlist hfull
      exact ⟨_, _, rfl, .ending hfull hstuck⟩

lemma operation_of_captivity {s : State} (hc : Captivity eligible t l s ph) :
    ph.operation = .lock l := by
  cases hc <;> rfl

/-- A captive is never outside of the critical section. -/
theorem StandsAt.inside_of_captivity (h : sys.StandsAt t ph)
    (hexposed : sys.state.Exposed eligible t l) (hc : Captivity eligible t l sys.state ph)
    (n : Nat) : ∃ last, sys.follow? eligible (List.replicate n .advance) = some last ∧
      last.inside = some (.unit t) := by
  induction n generalizing sys ph with
  | zero => exact ⟨sys, rfl, h.inside⟩
  | succ n ih =>
    have hstretch : Stretch eligible _ _ _ _ := h.stretch
    have hmove : sys.move? eligible .advance = _ := h.move?_advance
    obtain ⟨s', ph', ho, hc'⟩ := h.captivity_goto hexposed hc hstretch
    rw [ho] at hstretch hmove
    have hexposed' := (h.exposed_iff (operation_of_captivity hc) hstretch).mpr hexposed
    obtain ⟨last, hlast, hinside⟩ := ih (h.next hstretch) hexposed' hc'
    refine ⟨last, ?_, hinside⟩
    rw [List.replicate_succ, follow?, hmove]
    exact hlast

end System

end RoundScheduler
