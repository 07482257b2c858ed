import RoundScheduler.Proofs.Livelock.Potential

/-!
# No livelock

Every close of a round throws whoever waits for a lock out of the queue, and makes them pay another
turn for it. Still no run goes on for ever, as long as nobody asks for a lock while owning one, or
ends while owning one, and nobody lowers the number of primaries: in every round something is
completed, and there is only so much to complete.
-/

namespace RoundScheduler

namespace Agenda

variable {w : Agenda} {submitter : Nat → Nat} {run : Nat → System} {n : Nat}

/-- What holds in all runs under the discipline holds all along one. -/
lemma Tame.of_run (heligible : ∀ t, w.eligible t = true) (hstart : w.start? = some (run 0))
    (hrun : ∀ i < n, w.Disciplined submitter (run i) (run (i + 1))) :
    w.Tame submitter (run n) := by
  induction n with
  | zero => exact .of_start hstart
  | succ n ih =>
    have hbefore := ih fun i hi => hrun i (Nat.lt_succ_of_lt hi)
    exact hbefore.step heligible (hrun n (Nat.lt_succ_self n))

/-- Every step of a run uses up some of the potential, and only vain wake-ups add to it. -/
lemma potential_of_run (heligible : ∀ t, w.eligible t = true) (hstart : w.start? = some (run 0))
    (hrun : ∀ i < n, w.Disciplined submitter (run i) (run (i + 1))) :
    n + w.potential submitter (run n) ≤ w.potential submitter (run 0) +
      2 * (List.range n).countP fun i => (run i).wakesInVain w.eligible (run (i + 1)) := by
  induction n with
  | zero => simp
  | succ n ih =>
    have hbefore : ∀ i < n, w.Disciplined submitter (run i) (run (i + 1)) :=
      fun i hi => hrun i (Nat.lt_succ_of_lt hi)
    have hlast := (Tame.of_run heligible hstart hbefore).potential_step heligible
      (hrun n (Nat.lt_succ_self n))
    have hcount := ih hbefore
    rw [List.range_succ, List.countP_append, List.countP_singleton]
    split at hlast
    · next hvain =>
      rw [if_pos hvain]
      omega
    · next hvain =>
      rw [if_neg hvain]
      omega

end Agenda

/-- Units are submitted to a scheduler in which everybody may become a primary, by any clients and
at any time. In every run of them in which nobody asks for a lock while owning one, nobody ends
while owning one, nobody lowers the number of primaries to come, and nobody is taken out of a queue
by others, at most as many rounds begin as there are units and ordered steps in their routines, and
one more. One number bounds the steps of all these runs; only somebody who wakes up without getting
further makes a run longer, by the two steps of waking up and of falling asleep again. -/
theorem no_livelock_under_lock_discipline (w : Agenda) (submitter : Nat → Nat)
    (heligible : ∀ t, w.eligible t = true) :
    ∃ bound, ∀ n (run : Nat → System), w.start? = some (run 0) →
      (∀ i < n, w.Disciplined submitter (run i) (run (i + 1))) →
      (run n).state.round ≤ 1 + w.units.length + w.orderedSteps ∧
      n ≤ bound + 2 * (List.range n).countP fun i =>
        (run i).wakesInVain w.eligible (run (i + 1)) := by
  refine ⟨w.start?.elim 0 (w.potential submitter), fun n run hstart hrun => ⟨?_, ?_⟩⟩
  · exact (Agenda.Tame.of_run heligible hstart hrun).round_le
  · rw [hstart]
    exact Nat.le_of_add_right_le (Agenda.potential_of_run heligible hstart hrun)

/-- Two units that need the same lock; one of them takes a step while it owns it. -/
def contended : Agenda where
  config := { primaries := 2, recordSchedule := true }
  eligible := fun _ => true
  locks := 1
  units := [[{ order := .step (.lock ⟨0⟩) }, { order := .step .turn }, { order := .unlock ⟨0⟩ }],
    [{ order := .step (.lock ⟨0⟩) }, { order := .unlock ⟨0⟩ }]]

/-- Two clients submit the units. The first round ends while one thread waits for the lock, so that
it has to ask again in the second one. -/
def contendedMoves : List Move :=
  [.call (.client 0) (.submit (.scripted 0)), .advance, .advance,
    .call (.client 1) (.submit (.scripted 1)), .advance, .advance,
    .call (.unit ⟨0⟩) (.lock ⟨0⟩), .advance, .advance, .advance, .advance, .advance,
    .call (.unit ⟨0⟩) .turn, .advance, .advance, .advance, .advance,
    .call (.unit ⟨1⟩) (.lock ⟨0⟩), .advance, .advance, .advance, .advance, .advance,
    .advance, .advance, .advance, .advance, .advance, .advance, .advance,
    .enter (.unit ⟨0⟩), .advance, .advance,
    .call (.unit ⟨0⟩) (.unlock ⟨0⟩), .call (.unit ⟨0⟩) .retire, .advance, .advance, .advance,
    .enter (.unit ⟨1⟩), .advance, .advance,
    .call (.unit ⟨1⟩) (.unlock ⟨0⟩), .call (.unit ⟨1⟩) .retire, .advance, .advance, .advance,
    .advance]

/-- Two clients submit units that need the same lock. The one that waits for it when the first round
ends asks again and gets it in the second one, and the steps of the whole run are within the bound.
-/
theorem no_livelock_under_lock_discipline_contended :
    (∀ t, contended.eligible t = true) ∧
    ∃ bound, ∃ run : Nat → System, contended.start? = some (run 0) ∧
      (∀ i < 47, contended.Disciplined id (run i) (run (i + 1))) ∧
      .turn 1 ⟨1⟩ 1 ∈ (run 47).state.events ∧
      .lockAcquired 2 ⟨0⟩ ⟨1⟩ false ∈ (run 47).state.events ∧
      (run 47).state.round = 3 ∧ (run 47).state.round ≤ 1 + 2 + 3 ∧
      47 ≤ bound + 2 * (List.range 47).countP fun i =>
        (run i).wakesInVain contended.eligible (run (i + 1)) := by
  have heligible : ∀ t, contended.eligible t = true := fun _ => rfl
  obtain ⟨bound, hbound⟩ := no_livelock_under_lock_discipline contended id heligible
  obtain ⟨last, hlast, hturn, hlock, hround⟩ :
      ∃ last ∈ contended.start?.bind (contended.pursue? id · contendedMoves),
        .turn 1 ⟨1⟩ 1 ∈ last.state.events ∧ .lockAcquired 2 ⟨0⟩ ⟨1⟩ false ∈ last.state.events ∧
        last.state.round = 3 := by decide +kernel
  obtain ⟨start, hstart, hmoves⟩ := Option.bind_eq_some_iff.mp hlast
  obtain ⟨run, rfl, rfl, hrun⟩ := Agenda.exists_run_of_pursue? hmoves
  have hlength : contendedMoves.length = 47 := by decide
  rw [hlength] at hturn hlock hround hrun
  exact ⟨heligible, bound, run, hstart, hrun, hturn, hlock, hround, hbound 47 run hstart hrun⟩

end RoundScheduler
