import RoundScheduler.Proofs.Livelock.Potential
import RoundScheduler.Proofs.Workload.Runners

/-!
# The workload comes to an end

Whoever asks for the lock of the workload, or retires, owns nothing, so every move in a run of the
workload is made under the discipline that excludes a livelock, and uses up some of the potential of
the system. What runners do between moves uses up their chores, and a move brings no more of those
than one new runner has. Weighed together the two bound the length of all runs.
-/

namespace RoundScheduler

open State

variable {w : Agenda} {sys sys' : System} {c : Course} {a : Agent} {op : Operation} {o : Outcome}

/-! ### Units are submitted once -/

/-- Whoever submits is the client, and the unit is the next one. -/
lemma Shadow.submits_next (h : Shadow w sys c) {call : Call} {i : Nat}
    (hcall : sys.calls.get? a = some call) (hop : call.operation = .submit (.scripted i)) :
    a = .client 0 ∧ i = Agenda.submissions sys.returns := by
  cases a with
  | unit t =>
    have hsubmits := (h.units t call hcall).2
    rw [hop] at hsubmits
    cases hsubmits
  | client n =>
    cases n with
    | succ n => cases (h.clients n).symm.trans hcall
    | zero =>
      have hclient := h.client
      rw [hcall] at hclient
      cases hclient <;> cases hop <;> exact ⟨rfl, rfl⟩

namespace Agenda

/-- Only units below the number of submissions were answered. -/
def AnswersInOrder (sys : System) : Prop :=
  ∀ i, answered i sys.returns = true → i < submissions sys.returns

namespace AnswersInOrder

/-- Nobody but the client is answered to a submission, and it submits the next unit. -/
lemma apply (h : AnswersInOrder sys)
    (hop : ∀ i, op = .submit (.scripted i) → a = .client 0 ∧ i = submissions sys.returns) :
    AnswersInOrder (sys.apply a op o) := by
  cases o with
  | sleep | goto s' p | pause s' p => exact h
  | reply s' r =>
    intro i hi
    have hreturns : submissions (⟨a, op, r⟩ :: sys.returns) =
        submissions sys.returns + if a = .client 0 then 1 else 0 := by
      simp [submissions, List.countP_cons]
    change i < submissions (⟨a, op, r⟩ :: sys.returns)
    rw [hreturns]
    have hcases : op = .submit (.scripted i) ∨ answered i sys.returns = true := by
      simpa [System.apply, answered] using hi
    rcases hcases with hsubmit | hearlier
    · obtain ⟨ha, rfl⟩ := hop i hsubmit
      simp [ha]
    · exact Nat.lt_add_right _ (h i hearlier)

/-- Every step that follows an agenda keeps it. -/
theorem step (h : AnswersInOrder sys) (hinv : Invariant sys) (hshadow : Shadow w sys c)
    (hstep : w.Step sys sys') : AnswersInOrder sys' := by
  obtain ⟨m, hpermits, hm⟩ := hstep
  cases hinv.transition hm with
  | call a op o hinside hidle halive hlocks ho =>
    refine h.apply fun i hi => ?_
    have hnext : w.next? sys a = some op := by simpa [permits] using hpermits
    cases a with
    | unit t =>
      have hsubmits := (w.todo t sys.returns).submits_operation
      rw [(Option.some_inj.mp hnext).trans hi] at hsubmits
      cases hsubmits
    | client n =>
      cases n with
      | succ n => cases hnext
      | zero =>
        obtain ⟨-, hfirst⟩ := Option.ite_none_right_eq_some.mp hnext
        cases (Option.some_inj.mp hfirst).trans hi
        exact ⟨rfl, rfl⟩
  | stretch t op ph o hinside hcall | intake a op p o hinside hcall =>
    exact h.apply fun i hi => hshadow.submits_next hcall hi
  | enter a call hinside hcall => exact h
  | newLock hinside => cases hpermits
  | dropLock l hinside hl hunused => cases hpermits

end AnswersInOrder

end Agenda

namespace Workload

variable {w : Workload} {cfg : Config} {t : ThreadId} {s s' : Session}

/-! ### Moves are made under the discipline -/

namespace Tracked

/-- A thread in no operation that owns the lock gives it up next. -/
lemma operation_of_owner (h : Tracked w cfg sys c) (hinv : Invariant sys)
    (hidle : sys.calls.get? (.unit t) = none) (halive : sys.state.isAlive t = true) {l : LockId}
    (howner : sys.state.ownerOf? l = some t) :
    ((w.agenda cfg).todo t sys.returns).operation = .unlock lock := by
  obtain ⟨k, hk, hkowner⟩ := ownerOf?_eq_some_iff.mp howner
  obtain rfl : l = lock := (h.registered l).mp (hk ▸ rfl)
  have hactive := h.shadow.active_of_idle hinv hidle halive
  have htodo := (h.shadow.keeps t halive).todo
  rw [Shadow.hands_of_idle hidle, if_neg Bool.false_ne_true] at htodo
  rw [← htodo]
  rcases h.contention.next?_cases (h.contention.lt_size h.sound hactive.listed)
    hactive.unlinked with ⟨-, hnext⟩ | ⟨hother, -⟩
  · exact Desk.operation_of_next? hnext
  · exact absurd ((h.shadow.mirrors.owner lock k hk).trans hkowner) hother

end Tracked

/-- A step that follows the agenda is one under the discipline, as long as units are answered in
order. -/
theorem disciplined_of_answers (h : (w.agenda cfg).Reaches sys)
    (hanswers : Agenda.AnswersInOrder sys) (hstep : (w.agenda cfg).Step sys sys') :
    (w.agenda cfg).Disciplined (fun _ => 0) sys sys' := by
  have hinv := Invariant.of_reachable h.reachable
  obtain ⟨-, -, c, htracked⟩ := Tracked.of_reaches h
  obtain ⟨-, -, c', hafter⟩ := Tracked.of_reaches (h.step hstep)
  have hstaged : sys.state.staged.primaries ≤ sys'.state.staged.primaries := by
    rw [← htracked.shadow.mirrors.staged, ← hafter.shadow.mirrors.staged,
      htracked.contention.staged, hafter.contention.staged]
  obtain ⟨m, hpermits, hm⟩ := hstep
  refine ⟨m, ?_, fun t ht l howner => ?_, hm, hstaged⟩
  · cases m with
    | call a op =>
      have hnext : (w.agenda cfg).next? sys a = some op := by
        simpa [Agenda.permits] using hpermits
      cases a with
      | unit t => exact (Option.some_inj.mp hnext).symm
      | client n =>
        cases n with
        | succ n => cases hnext
        | zero =>
          obtain ⟨hlt, hfirst⟩ := Option.ite_none_right_eq_some.mp hnext
          refine ⟨_, hlt, rfl, (Option.some_inj.mp hfirst).symm, Bool.eq_false_iff.mpr fun hi => ?_⟩
          exact Nat.lt_irrefl _ (hanswers _ hi)
    | advance | enter => trivial
    | newLock | dropLock => cases hpermits
  · -- Whoever owns the lock makes no claim.
    cases hinv.transition hm with
    | call a op o hinside hidle halive hlocks ho =>
      cases a with
      | client n => cases ht
      | unit u =>
        have hnext : ((w.agenda cfg).todo u sys.returns).operation = op := by
          simpa [Agenda.permits, Agenda.next?] using hpermits
        have hu : u = t := by cases op <;> cases ht <;> rfl
        subst hu
        have hunlock := htracked.operation_of_owner hinv hidle halive howner
        cases hnext.symm.trans hunlock
        cases ht
    | _ => cases ht

/-- Every system that follows the agenda of the workload is tame, and its units are answered in
order. -/
theorem tame_of_reaches (h : (w.agenda cfg).Reaches sys) :
    (w.agenda cfg).Tame (fun _ => 0) sys ∧ Agenda.AnswersInOrder sys := by
  obtain ⟨first, hstart, hpath⟩ := h
  induction hpath with
  | refl =>
    refine ⟨.of_start hstart, fun i hi => ?_⟩
    simp [Agenda.answered, (Agenda.untouched_of_start hstart).returns] at hi
  | tail hpath hstep ih =>
    obtain ⟨htame, hanswers⟩ := ih
    have hbefore : (w.agenda cfg).Reaches _ := ⟨first, hstart, hpath⟩
    obtain ⟨-, -, c, htracked⟩ := Tracked.of_reaches hbefore
    exact ⟨htame.step (fun _ => rfl) (disciplined_of_answers hbefore hanswers hstep),
      hanswers.step htame.invariant htracked.shadow hstep⟩

/-- Every step that follows the agenda is one under the discipline. -/
lemma disciplined_of_step (h : (w.agenda cfg).Reaches sys) (hstep : (w.agenda cfg).Step sys sys') :
    (w.agenda cfg).Disciplined (fun _ => 0) sys sys' :=
  disciplined_of_answers h (tame_of_reaches h).2 hstep

/-! ### What runs use up -/

/-- How much a session of the workload can still do: a move is worth more than all the chores that
it may bring. -/
def effort (w : Workload) (cfg : Config) (s : Session) : Nat :=
  (4 * w.criticalSections + 1) * (w.agenda cfg).potential (fun _ => 0) s.system + s.chores

namespace Manned

variable {held : Agent → Option Operation}

/-- A new runner has two chores at most for each line of its script. -/
lemma chores_runnerFor_le (h : Manned w cfg s held) (work : Work) :
    (s.runnerFor work).chores ≤ 4 * w.criticalSections := by
  cases work with
  | interactive | noop | panics | filler => exact Nat.zero_le _
  | scripted n =>
    rw [Session.runnerFor, h.scripts]
    split
    · next script hscript =>
      obtain rfl := (List.mem_replicate.mp (List.mem_of_getElem? hscript)).2
      have hlength : (w.script lock).numbered.length = 2 * w.criticalSections := by
        simp [Script.numbered, script, List.length_flatten, Nat.mul_comm]
      simp only [Runner.chores, hlength, Option.toList_none, List.length_nil]
      omega
    · exact Nat.zero_le _

/-- Whoever goes on because it can does not wake up in vain. -/
lemma wakesInVain_eq_false (h : Manned w cfg s held) {a : Agent} {r : Runner}
    (hable : s.IsAble a r) (hspares : System.Spares a s.system sys') :
    s.system.wakesInVain (w.agenda cfg).eligible sys' = false := by
  rcases hable with hinside | ⟨-, hready⟩
  · simp [System.wakesInVain, hinside]
  refine Bool.eq_false_iff.mpr fun hvain => ?_
  obtain ⟨-, hvain⟩ := Bool.and_eq_true_iff.mp hvain
  obtain ⟨b, hb, hvain⟩ := (Option.any_eq_true _ _).mp hvain
  obtain ⟨hcall, hstuck⟩ := Bool.and_eq_true_iff.mp hvain
  obtain rfl := hspares.inside b hb
  have hcontains : s.system.calls.contains b = true := hcall
  rw [Session.isReady, if_pos hcontains, h.eligible_eq] at hready
  simp [hready] at hstuck

/-- Whenever somebody goes on who can, less is left to do. -/
theorem effort_lt (h : Manned w cfg s s.system.called?) (htidy : s.Tidy)
    (hnames : cfg.namesWorkers = true) (hgoes : s.Progresses s') :
    w.effort cfg s' < w.effort cfg s := by
  obtain ⟨a, r, hrunner, hable, rfl⟩ := hgoes
  have hchores := Session.chores_act_le htidy hrunner h.chores_runnerFor_le
  have hfollows := (h.act htidy hnames hrunner hable.inside).1
  generalize s.act a r = next at hchores hfollows ⊢
  cases hfollows with
  | step _ hstep hspares =>
    have hpotential := (tame_of_reaches h.reaches).1.potential_step (fun _ => rfl)
      (disciplined_of_step h.reaches hstep)
    simp only [h.wakesInVain_eq_false hable hspares, Bool.false_eq_true, if_false,
      Nat.add_zero] at hpotential
    have hweighed := Nat.mul_le_mul_left (4 * w.criticalSections + 1) hpotential
    rw [Nat.mul_add, Nat.mul_one] at hweighed
    rw [effort, effort]
    omega
  | chore _ hsystem hless =>
    rw [effort, effort, hsystem]
    exact Nat.add_lt_add_left hless _
  | idle hfree hready =>
    rcases hable with hinside | ⟨-, hready'⟩
    · cases hfree.symm.trans hinside
    · cases hready.symm.trans hready'

/-- One after the other uses up what is left to do. -/
theorem effort_of_progress (h : Manned w cfg s s.system.called?) (htidy : s.Tidy)
    (hnames : cfg.namesWorkers = true) {run : Nat → Session} {k : Nat} (hstart : run 0 = s)
    (hrun : ∀ i < k, (run i).Progresses (run (i + 1))) :
    k + w.effort cfg (run k) ≤ w.effort cfg s := by
  have hruns : ∀ i ≤ k, Session.Runs s (run i) := fun i => by
    induction i with
    | zero => exact fun _ => hstart ▸ .refl
    | succ i ih => exact fun hi => (ih (Nat.le_of_succ_le hi)).tail (hrun i hi).goes
  induction k with
  | zero => rw [hstart, Nat.zero_add]
  | succ k ih =>
    have hbefore := hruns k k.le_succ
    have hless := (h.runs htidy hnames hbefore).effort_lt (htidy.runs hbefore) hnames
      (hrun k k.lt_succ_self)
    have hsum := ih (fun i hi => hrun i (Nat.lt_succ_of_lt hi))
      fun i hi => hruns i (Nat.le_succ_of_le hi)
    omega

/-- A session that is let go on long enough gets to where nobody can. -/
theorem exists_settleWithin {fuel : Nat} (h : Manned w cfg s s.system.called?) (htidy : s.Tidy)
    (hnames : cfg.namesWorkers = true) (hfuel : w.effort cfg s < fuel) :
    ∃ last, s.settleWithin fuel = some last := by
  induction fuel generalizing s with
  | zero => exact absurd hfuel (Nat.not_lt_zero _)
  | succ fuel ih =>
    unfold Session.settleWithin
    split
    · exact ⟨s, rfl⟩
    · next a r hnext =>
      have hgoes := Session.progresses_of_next? htidy hnext
      have hless := h.effort_lt htidy hnames hgoes
      exact ih (h.runs htidy hnames (.single hgoes.goes)) htidy.act (by omega)

end Manned

end Workload

end RoundScheduler
