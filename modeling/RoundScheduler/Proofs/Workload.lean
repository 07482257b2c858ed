import RoundScheduler.Proofs.Workload.Ending

/-!
# The lock workload

Whatever the order in which the client and the units go on, the lock workload records the turns, the
owners of the lock and the starts of rounds of its plan, one after the other, and it comes to rest
only once all units retired and everything on the plan happened. It does come to rest. Its number of
units fills whole rounds, so the last round does not wait for units that never come.
-/

namespace RoundScheduler

open State

namespace Workload

variable {w : Workload} {c : Config} {sys : System}

/-- What a system that follows the workload recorded is a beginning of the plan. -/
lemma schedule_initial (hrecord : c.recordSchedule = true) (h : (w.agenda c).Reaches sys) :
    ∃ tr, sys.schedule? = some tr ∧ tr.turns <+: w.turns c ∧ tr.lockGrants lock <+: w.grants c ∧
      tr.roundStarts <+: w.starts c := by
  have hreach : System.Reachable c sys := h.reachable
  obtain ⟨hprimaries, -, course, htracked⟩ := Tracked.of_reaches h
  have hmirrors := htracked.shadow.mirrors
  obtain ⟨hturns, hstarts, hgrants⟩ := htracked.onPlan.prefixes htracked.contention hprimaries
  rw [hmirrors.turns] at hturns
  rw [hmirrors.starts] at hstarts
  rw [hmirrors.grants] at hgrants
  exact ⟨_, hreach.schedule?_eq hrecord, hturns, hgrants, hstarts⟩

/-- A system that follows the workload and is at rest is done with all of it. -/
lemma schedule_of_stops {tr : Schedule} (hnames : c.namesWorkers = true)
    (hbound : c.primaries ≤ c.admissionBound c.primaries + 1) (h : (w.agenda c).Reaches sys)
    (hstops : (w.agenda c).Stops sys) (htr : sys.schedule? = some tr) :
    (∀ t, t ∈ tr.terminations ↔ t.raw < w.size c) ∧ sys.state.threadList = [] ∧
      sys.state.admissionQueue = [] ∧ sys.state.scheduled = sys.state.terminated ∧
      tr.turns = w.turns c ∧ tr.lockGrants lock = w.grants c ∧ tr.roundStarts = w.starts c := by
  have hreach : System.Reachable c sys := h.reachable
  have hinv := Invariant.of_reachable hreach
  obtain ⟨hprimaries, -, course, htracked⟩ := Tracked.of_reaches h
  have hmirrors := htracked.shadow.mirrors
  obtain ⟨-, htr⟩ := Option.ite_none_right_eq_some.mp htr
  obtain rfl := Option.some_inj.mp htr
  have hconserved := Conserved.of_reachable hnames hreach
  obtain ⟨hnext, hcall, hroster, hturns, hstarts, hgrants⟩ :=
    htracked.complete_of_stops hinv hstops hconserved.attended (.of_reachable hreach) hnames
      hreach.config_eq hbound hprimaries
  rw [hmirrors.turns] at hturns
  rw [hmirrors.starts] at hstarts
  rw [hmirrors.grants] at hgrants
  rw [hmirrors.roster] at hroster
  have htally := (Sane.of_reachable hreach).tallied
  rw [Tallied, hroster] at htally
  refine ⟨fun t => Schedule.mem_terminations_iff.trans
      (htracked.terminated_iff_of_stops hreach hstops hconserved hnext hcall hroster),
    hroster, List.eq_nil_iff_forall_not_mem.mpr fun t ht => ?_, htally.symm, hturns, hgrants,
    hstarts⟩
  -- Only the client submits, and it is outside.
  obtain ⟨-, a, work, k, ha⟩ := hinv.submitters.waiting t ht
  rw [htracked.submission?_eq_none hinv hcall a] at ha
  cases ha

/-- When a round begins by a small step, nobody is in the queue of a lock. -/
lemma Manned.queue_eq_nil_of_begins {s s' : Session} (h : Manned w c s s.system.called?)
    (htidy : s.Tidy) (hnames : c.namesWorkers = true) (hgoes : Session.Goes s s')
    (hround : s'.system.state.round ≠ s.system.state.round) {l : LockId} {k : LockState}
    (hk : s.system.state.lock? l = some k) : k.queue = [] := by
  obtain ⟨a, r, hrunner, hinside, rfl⟩ := hgoes
  have hfollows := (h.act htidy hnames hrunner hinside).1
  generalize s.act a r = next at hfollows hround
  cases hfollows with
  | step _ hstep =>
    obtain ⟨-, -, course, htracked⟩ := Tracked.of_reaches h.reaches
    exact htracked.queue_eq_nil_of_begins (.of_reachable h.reaches.reachable) hstep hround hk
  | chore _ hsystem => exact absurd (congrArg (·.state.round) hsystem) hround
  | idle => exact absurd rfl hround

end Workload

/-- Whatever the interleaving of the lock workload, launched with its padded number of units on a
fresh scheduler that records and can name its workers: if the bound of admission leaves room for a
round, then nothing is refused to any unit, no request is taken out of the queue of a lock by the
end of a round, the turns, the owners of the lock and the starts of rounds so far begin those of the
plan, and the run stops only when all units retired and everything on the plan happened. It does
stop: one number bounds the steps of all runs in which somebody goes on who can. A workload that is
run to its end is one of these runs. -/
theorem lock_workload_follows_plan {w : Workload} {c : Config} {n : Nat} {first s : Session}
    (hrecord : c.recordSchedule = true) (hnames : c.namesWorkers = true)
    (hbound : c.primaries ≤ c.admissionBound c.primaries + 1)
    (hfirst : Session.start c none 0 [] = .ok first) (hn : w.paddedUnits c.primaries = .ok n)
    (h : Session.Runs (w.launch first 0 n) s) :
    n = w.groups c.primaries * c.primaries ∧
    (∀ x ∈ s.answers, ∃ v, x.answer = .ok v) ∧
    (∀ next, Session.Goes s next → next.system.state.round ≠ s.system.state.round →
      ∀ l k, s.system.state.lock? l = some k → k.queue = []) ∧
    (∃ tr, s.system.schedule? = some tr ∧ tr.turns <+: w.turns c ∧
      tr.lockGrants first.system.state.nextLock <+: w.grants c ∧ tr.roundStarts <+: w.starts c ∧
      (s.next? = none →
        (∀ t, t ∈ tr.terminations ↔ t.raw < n) ∧ s.system.state.threadList = [] ∧
        s.isQuiescent = true ∧ tr.turns = w.turns c ∧
        tr.lockGrants first.system.state.nextLock = w.grants c ∧ tr.roundStarts = w.starts c ∧
        tr.roundStarts.length = w.groups c.primaries * w.roundsPerGroup c)) ∧
    (∃ bound, (∀ k (run : Nat → Session), run 0 = w.launch first 0 n →
        (∀ i < k, (run i).Progresses (run (i + 1))) → k ≤ bound) ∧
      ∃ last, (w.launch first 0 n).settleWithin (bound + 1) = some last) ∧
    ∀ last, w.run first 0 c.primaries = .ok (some last) →
      Session.Runs (w.launch first 0 n) last ∧ last.next? = none := by
  obtain rfl := w.paddedUnits_eq c hn
  have hlaunched := Workload.Manned.of_launch (w := w) hfirst
  have htidy := w.tidy_launch (Session.tidy_of_start hfirst) 0 (w.size c)
  have hmanned := hlaunched.runs htidy hnames h
  obtain ⟨tr, htr, hturns, hgrants, hstarts⟩ := Workload.schedule_initial hrecord hmanned.reaches
  rw [(w.move_newLock_of_start hfirst).1]
  refine ⟨rfl, hmanned.answered, fun next hgoes hround l k hk => ?_,
    ⟨tr, htr, hturns, hgrants, hstarts, fun hnext => ?_⟩,
    ⟨w.effort c (w.launch first 0 (w.size c)), fun k run hrun hgoes => ?_, ?_⟩,
    fun last => Workload.runs_of_run (Session.tidy_of_start hfirst) hn⟩
  · exact hmanned.queue_eq_nil_of_begins (htidy.runs h) hnames hgoes hround hk
  · obtain ⟨hterminated, hlist, hqueue, htally, hturns, hgrants, hstarts⟩ :=
      Workload.schedule_of_stops hnames hbound hmanned.reaches (hmanned.stops hnext) htr
    refine ⟨hterminated, hlist, ?_, hturns, hgrants, hstarts,
      (congrArg List.length hstarts).trans (w.length_starts c)⟩
    simp [Session.isQuiescent, htally, hqueue]
  · exact Nat.le_of_add_right_le (hlaunched.effort_of_progress htidy hnames hrun hgoes)
  · exact hlaunched.exists_settleWithin htidy hnames (Nat.lt_succ_self _)

/-! ### A hand-off -/

/-- Two primaries with one step each, and a schedule. -/
def pairRecording : Config := { primaries := 2, recordSchedule := true }

/-- One unit with one critical section, which is padded to two units. -/
def loneUnit : Workload := ⟨1, 1⟩

/-- The first unit hands the lock to the second one, and both retire after one round. -/
theorem lock_workload_follows_plan_handOff :
    ∃ first last tr, Session.start pairRecording none 0 [] = .ok first ∧
      loneUnit.run first 0 2 = .ok (some last) ∧ last.system.schedule? = some tr ∧
      tr.turns = [(1, ⟨0⟩, 0), (1, ⟨1⟩, 1)] ∧ tr.lockGrants ⟨0⟩ = [⟨0⟩, ⟨1⟩] ∧
      tr.roundStarts = [(1, [⟨0⟩, ⟨1⟩], [0, 1])] ∧ ∀ t, t ∈ tr.terminations ↔ t.raw < 2 := by
  obtain ⟨first, last, hfirst, hrun⟩ : ∃ first last,
      Session.start pairRecording none 0 [] = .ok first ∧
      loneUnit.run first 0 2 = .ok (some last) := ⟨_, _, rfl, rfl⟩
  obtain ⟨-, -, -, -, -, hends⟩ := lock_workload_follows_plan (w := loneUnit) (c := pairRecording)
    rfl (by decide) (by decide) hfirst (n := 2) rfl .refl
  obtain ⟨hruns, hnext⟩ := hends last hrun
  obtain ⟨-, -, -, ⟨tr, htr, -, -, -, hall⟩, -⟩ := lock_workload_follows_plan (w := loneUnit)
    (c := pairRecording) rfl (by decide) (by decide) hfirst (n := 2) rfl hruns
  obtain ⟨hterminated, -, -, hturns, hgrants, hstarts, -⟩ := hall hnext
  rw [(loneUnit.move_newLock_of_start hfirst).1] at hgrants
  exact ⟨first, last, tr, hfirst, hrun, htr, hturns, hgrants, hstarts, hterminated⟩

/-! ### A name that no worker can bear -/

/-- A schedule of one unit a round, and names that begin with a NUL character. -/
def unnamed : Config := { primaries := 1, threadNamePrefix := "\x00", recordSchedule := true }

/-- No worker can be named after a prefix with a NUL character, so the lone unit never starts: the
workload comes to rest without a turn. The number of units is no machine word for every workload
either. -/
theorem lock_workload_unnamed :
    unnamed.primaries ≤ unnamed.admissionBound 1 + 1 ∧
    (∃ first last tr, Session.start unnamed none 0 [] = .ok first ∧
      loneUnit.paddedUnits 1 = .ok 1 ∧ loneUnit.run first 0 1 = .ok (some last) ∧
      Session.Runs (loneUnit.launch first 0 1) last ∧ last.next? = none ∧
      last.system.schedule? = some tr ∧ ⟨0⟩ ∉ tr.terminations ∧ tr.turns = [] ∧
      loneUnit.turns unnamed = [(1, ⟨0⟩, 0)]) ∧
    (⟨Word.max, 0⟩ : Workload).paddedUnits 2 = .error .multiply := by
  obtain ⟨first, last, tr, hfirst, hrun, htr, hterminations, hturns⟩ : ∃ first last tr,
      Session.start unnamed none 0 [] = .ok first ∧ loneUnit.run first 0 1 = .ok (some last) ∧
      last.system.schedule? = some tr ∧ tr.terminations = [] ∧ tr.turns = [] :=
    ⟨_, _, _, rfl, rfl, rfl, rfl, rfl⟩
  obtain ⟨hruns, hnext⟩ := Workload.runs_of_run (Session.tidy_of_start hfirst) rfl hrun
  refine ⟨by decide, ⟨first, last, tr, hfirst, rfl, hrun, hruns, hnext, htr, ?_, hturns, rfl⟩, rfl⟩
  simp [hterminations]

end RoundScheduler
