import RoundScheduler.Proofs.Spin.Treadmill

/-!
# Requests for locks that never end

A thread that asks for a lock stays in the critical section until it is served or falls asleep. The
one thing that can keep it there for ever is its own request: if it is the only primary of the round
it begins, and somebody else owns the lock, then it waits in the queue, which ends the round, which
takes it out of the queue and makes it the only primary of a round in which it asks for the lock
again. The owner, who would need a round of its own to go on, never enters the critical section, and
neither does anybody else.
-/

namespace RoundScheduler

open State

namespace System

variable {c : Config} {eligible : ThreadId → Bool} {sys last : System} {t : ThreadId} {l m : LockId}
  {ph : Phase}

/-- While a thread acquires a lock it does not become exposed. -/
lemma StandsAt.exposed_of_follow? {n : Nat} (h : sys.StandsAt t ph) (hop : ph.operation = .lock m)
    (hlast : sys.follow? eligible (List.replicate n .advance) = some last)
    (hinside : last.inside = some (.unit t)) (hexposed : last.state.Exposed eligible t l) :
    sys.state.Exposed eligible t l := by
  induction n generalizing sys ph with
  | zero =>
    cases hlast
    exact hexposed
  | succ n ih =>
    have hstretch : Stretch eligible _ _ _ _ := h.stretch
    rw [List.replicate_succ, follow?, h.move?_advance, Option.bind_some] at hlast
    generalize ph.step eligible t sys.state = o at hstretch hlast
    have hstays : (sys.apply (.unit t) ph.operation o).inside ≠ none := fun hnone => by
      cases (inside_eq_none_of_follow? hnone hlast).symm.trans hinside
    cases o with
    | goto s' point =>
      obtain ⟨ph', rfl, hop'⟩ := hstretch.exists_phase
      have hnext := ih (h.next hstretch) (hop'.trans hop) hlast
      exact (h.exposed_iff hop hstretch).mp hnext
    | _ => exact absurd rfl hstays

/-- Where a stay leads to a captive, the critical section is never free. -/
lemma Reachable.inside_of_captive (h : Reachable c sys)
    (hcaptive : sys.Leads eligible (IsCaptive eligible t l)) (n : Nat) :
    ∃ mid, sys.follow? eligible (List.replicate n .advance) = some mid ∧ mid.inside ≠ none := by
  obtain ⟨m, captive, hm, hcaptive⟩ := hcaptive
  have hinv := Invariant.of_reachable (h.path (path_of_follow? hm))
  have hstands : captive.StandsAt t (.check (.awaitHandOver l)) :=
    ⟨hinv, hcaptive.inside, hcaptive.call⟩
  obtain ⟨last, hlast, hinside⟩ := hstands.inside_of_captivity hcaptive.exposed
    (.ending hcaptive.full hcaptive.stuck) n
  have htotal : sys.follow? eligible (List.replicate (n + m) .advance) = some last := by
    rw [Nat.add_comm, List.replicate_add, follow?_append, hm]
    exact hlast
  rw [List.replicate_add, follow?_append] at htotal
  obtain ⟨mid, hmid, hrest⟩ := Option.bind_eq_some_iff.mp htotal
  refine ⟨mid, hmid, fun hnone => ?_⟩
  cases (inside_eq_none_of_follow? hnone hrest).symm.trans hinside

end System

/-- A thread that is inside the critical section to acquire a lock leaves it, because it was served
or because the condition is false for which it waits, unless its steps lead to the place where it is
in the queue, somebody else owns the lock, and it is about to close a round to become the only
primary of the next one. That happens only if one primary is staged, the thread is the first that
may be chosen, and somebody else owns the lock from the beginning. -/
theorem lock_leaves_unless_captive {c : Config} {sys : System} {eligible : ThreadId → Bool}
    {t : ThreadId} {l : LockId} {point : Point} (h : System.Reachable c sys)
    (hinside : sys.inside = some (.unit t))
    (hcall : sys.calls.get? (.unit t) = some ⟨.lock l, point⟩) :
    (sys.Leads eligible (System.HasLeft eligible t) ↔
        ¬ sys.Leads eligible (System.IsCaptive eligible t l)) ∧
      (¬ sys.state.Exposed eligible t l → sys.Leads eligible (System.HasLeft eligible t)) := by
  obtain ⟨ph, hstands, hop⟩ := h.exists_standsAt hinside hcall
  have hsettles : sys.Settles eligible t l := hstands.settles_lock hop
  obtain ⟨n, last, hlast, hend⟩ := hsettles
  refine ⟨⟨fun hleaves hcaptive => ?_, fun hfree => ?_⟩, fun hunexposed => ?_⟩
  · obtain ⟨n, last, hlast, hleft⟩ := hleaves
    obtain ⟨mid, hmid, hoccupied⟩ := h.inside_of_captive hcaptive n
    cases hlast.symm.trans hmid
    exact hoccupied hleft.1
  · rcases hend with hleft | hcaptive
    · exact ⟨n, last, hlast, hleft⟩
    · exact absurd ⟨n, last, hlast, hcaptive⟩ hfree
  · rcases hend with hleft | hcaptive
    · exact ⟨n, last, hlast, hleft⟩
    · exact absurd (hstands.exposed_of_follow? hop hlast hcaptive.inside hcaptive.exposed)
        hunexposed

/-- The first thread acquires the lock and waits for the end of the round. Then the second one asks
for the lock: it closes the round in which it waits in the queue, begins the next one, and waits for
its turn in it to ask again. -/
def closingMoves : List Move :=
  [.newLock, .call (.client 0) (.submit .interactive), .advance, .advance,
    .call (.client 0) (.submit .interactive), .advance, .advance,
    .call (.unit ⟨0⟩) (.lock ⟨0⟩), .advance, .advance, .advance, .advance, .advance,
    .call (.unit ⟨0⟩) .turn, .advance, .advance, .advance, .advance,
    .call (.unit ⟨1⟩) (.lock ⟨0⟩)]

/-- A thread that closes a round of two on its way leaves the critical section. -/
theorem lock_leaves_unless_captive_closing :
    ∃ sys, System.run? { primaries := 2 } (fun _ => true) closingMoves = some sys ∧
      sys.state.round = 1 ∧ sys.state.ownerOf? ⟨0⟩ = some ⟨0⟩ ∧
      sys.Leads (fun _ => true) (System.HasLeft (fun _ => true) ⟨1⟩) ∧
      ¬ sys.Leads (fun _ => true) (System.IsCaptive (fun _ => true) ⟨1⟩ ⟨0⟩) := by
  obtain ⟨sys, hrun, hround, howner, hinside, hcall, hstaged⟩ : ∃ sys,
      System.run? { primaries := 2 } (fun _ => true) closingMoves = some sys ∧
        sys.state.round = 1 ∧ sys.state.ownerOf? ⟨0⟩ = some ⟨0⟩ ∧
        sys.inside = some (.unit ⟨1⟩) ∧
        sys.calls.get? (.unit ⟨1⟩) = some ⟨.lock ⟨0⟩, .thread ⟨1⟩ (.enter (.lock ⟨0⟩))⟩ ∧
        sys.state.staged.primaries = 2 := ⟨_, rfl, rfl, rfl, rfl, rfl, rfl⟩
  have hunexposed : ¬ sys.state.Exposed (fun _ => true) ⟨1⟩ ⟨0⟩ := fun hexposed => by
    cases hstaged.symm.trans hexposed.alone
  obtain ⟨hiff, hleaves⟩ :=
    lock_leaves_unless_captive (System.reachable_of_run? hrun) hinside hcall
  exact ⟨sys, hrun, hround, howner, hleaves hunexposed, hiff.mp (hleaves hunexposed)⟩

/-- The first thread stages rounds of one primary. The second one acquires the lock and waits for
the end of the round. Then the first one asks for the lock. -/
def lapMoves : List Move :=
  [.newLock, .call (.client 0) (.submit .interactive), .advance, .advance,
    .call (.client 0) (.submit .interactive), .advance, .advance,
    .call (.unit ⟨0⟩) (.reconfigure (.both 1 1)), .advance, .advance, .advance, .advance, .advance,
    .call (.unit ⟨1⟩) (.lock ⟨0⟩), .advance, .advance,
    .call (.unit ⟨1⟩) .turn, .advance, .advance, .advance, .advance,
    .call (.unit ⟨0⟩) (.lock ⟨0⟩)]

/-- Nobody has retired, and still the request for the lock never leaves the critical section. -/
theorem exists_lock_never_leaves :
    ∃ sys, System.run? { primaries := 2 } (fun _ => true) lapMoves = some sys ∧
      sys.state.terminated = 0 ∧
      sys.calls.get? (.unit ⟨0⟩) = some ⟨.lock ⟨0⟩, .thread ⟨0⟩ (.enter (.lock ⟨0⟩))⟩ ∧
      ∀ n, ∃ mid, sys.follow? (fun _ => true) (List.replicate n .advance) = some mid ∧
        mid.inside ≠ none := by
  obtain ⟨sys, captive, hrun, hterminated, hcall, hlast, hinside, hcall', halone, hfirst, howner,
      hlive, hprimaries, hstuck⟩ : ∃ sys captive,
      System.run? { primaries := 2 } (fun _ => true) lapMoves = some sys ∧
        sys.state.terminated = 0 ∧
        sys.calls.get? (.unit ⟨0⟩) = some ⟨.lock ⟨0⟩, .thread ⟨0⟩ (.enter (.lock ⟨0⟩))⟩ ∧
        sys.follow? (fun _ => true) (List.replicate 8 .advance) = some captive ∧
        captive.inside = some (.unit ⟨0⟩) ∧
        captive.calls.get? (.unit ⟨0⟩) =
          some ⟨.lock ⟨0⟩, .thread ⟨0⟩ (.check (.awaitHandOver ⟨0⟩))⟩ ∧
        captive.state.staged.primaries = 1 ∧
        (captive.state.runners fun _ => true).head? = some ⟨0⟩ ∧
        captive.state.ownerOf? ⟨0⟩ = some ⟨1⟩ ∧ captive.state.live.primaries = 1 ∧
        captive.state.primaries = [⟨0⟩] ∧ captive.state.canProgress ⟨0⟩ = false :=
    ⟨_, _, rfl, rfl, rfl, rfl, rfl, rfl, rfl, rfl, rfl, rfl, rfl, rfl⟩
  have hcaptive : captive.IsCaptive (fun _ => true) ⟨0⟩ ⟨0⟩ :=
    ⟨hinside, hcall', ⟨halone, hfirst, ⟨1⟩, howner, by decide⟩, by simp [hlive, hprimaries],
      by simpa [hprimaries] using hstuck⟩
  exact ⟨sys, hrun, hterminated, hcall,
    (System.reachable_of_run? hrun).inside_of_captive ⟨8, captive, hlast, hcaptive⟩⟩

end RoundScheduler
