import RoundScheduler.Proofs.Workload.Chores
import RoundScheduler.Proofs.Workload.News

/-!
# Runners of the workload

A session in which the workload was launched makes the moves that its agenda permits. Every runner
has exactly those operations left that the agenda still has for its agent. `Manned` states the
agreement; it holds once the workload is launched, every small step of a runner keeps it, and where
nobody can go on the system is at rest.
-/

namespace RoundScheduler

open Function State

/-! ### Runners and what they have to do -/

/-- The operations that a runner has not called yet. -/
def Runner.pending (r : Runner) : List Operation :=
  r.frame.toList.flatMap (·.rest) ++ r.todo.flatMap (·.2.operations) ++
    r.ending.toList.map fun _ => .retire

/-- A runner calls its operations one by one, and none was refused. -/
structure Runner.Plain (r : Runner) : Prop where
  frame : ∀ f, r.frame = some f → f.failure = none ∧ f.breaksOff = none
  todo : ∀ x ∈ r.todo, ∃ op, x.2 = .operation op

/-- Between two commands only what is still to do matters. -/
lemma Runner.Plain.of_frame_eq_none {r : Runner} (hframe : r.frame = none)
    (htodo : ∀ x ∈ r.todo, ∃ op, x.2 = .operation op) : r.Plain :=
  ⟨fun f hf => (Option.some_ne_none f (hf.symm.trans hframe)).elim, htodo⟩

/-- The operation that an agent is in. -/
def System.called? (sys : System) (a : Agent) : Option Operation :=
  (sys.calls.get? a).map (·.operation)

/-- Whoever is outside is in no operation. -/
lemma System.called?_of_idle {sys : System} {a : Agent} (hidle : sys.calls.get? a = none) :
    sys.called? a = none := by
  rw [called?, hidle, Option.map_none]

/-- Somebody has a runner that does what the agenda says, or nothing to do. The operation `op?` is
the one that the runner called last and was not answered, if there is one. -/
inductive Post (w : Agenda) (sys : System) (a : Agent) (op? : Option Operation) :
    Option Runner → Prop
  /-- Nobody is there, because nothing is left to do. -/
  | vacant (hcall : sys.calls.get? a = none)
    (hdone : sys.isAlive a = true → w.outstanding sys.returns a = []) : Post w sys a op? none
  /-- A runner has left what the agenda has. -/
  | taken (r : Runner) (hleft : op?.toList ++ r.pending = w.outstanding sys.returns a)
    (hplain : r.Plain) (halive : sys.calls.get? a = none → sys.isAlive a = true) :
    Post w sys a op? (some r)

namespace Post

variable {w : Agenda} {sys sys' : System} {a b : Agent} {op : Operation} {op? : Option Operation}
  {r? : Option Runner}

/-- Others stay at their posts. -/
lemma spared (h : Post w sys b op? r?) (hspares : System.Spares a sys sys') (hba : b ≠ a)
    (hold : ∀ t, b = .unit t → sys'.state.isAlive t = true → sys.state.isAlive t = true)
    (houtstanding : w.outstanding sys'.returns b = w.outstanding sys.returns b) :
    Post w sys' b op? r? := by
  cases h with
  | vacant hcall hdone =>
    refine .vacant ((hspares.calls b hba).trans hcall) fun halive => houtstanding.trans (hdone ?_)
    cases b with
    | client n => rfl
    | unit t => exact hold t rfl halive
  | taken r hleft hplain halive =>
    exact .taken r (hleft.trans houtstanding.symm) hplain fun hcall =>
      hspares.alive b hba (halive ((hspares.calls b hba).symm.trans hcall))

end Post

namespace Workload

/-- Runners work through the workload as its agenda says, if everybody is in the operation that
`held` names or about to call it. -/
structure Manned (w : Workload) (cfg : Config) (s : Session) (held : Agent → Option Operation) :
    Prop where
  reaches : (w.agenda cfg).Reaches s.system
  barred : s.barred = none
  scripts : s.scripts = List.replicate (w.size cfg) (w.script lock)
  posts : ∀ a, Post (w.agenda cfg) s.system a (held a) (s.runners.get? a)
  /-- Nothing was refused, and nothing broke off. -/
  answered : ∀ x ∈ s.answers, ∃ v, x.answer = .ok v

namespace Manned

variable {w : Workload} {cfg : Config} {s s' : Session} {held : Agent → Option Operation}
  {a : Agent} {r : Runner} {op : Operation} {ops : List Operation} {m : Move} {sys' : System}

/-- Runners are plain. -/
lemma plain (h : Manned w cfg s held) (hrunner : s.runners.get? a = some r) : r.Plain := by
  have hpost := h.posts a
  rw [hrunner] at hpost
  cases hpost with
  | taken _ hleft hplain halive => exact hplain

/-- Runners have left what the agenda has. -/
lemma left (h : Manned w cfg s held) (hrunner : s.runners.get? a = some r) :
    (held a).toList ++ r.pending = (w.agenda cfg).outstanding s.system.returns a := by
  have hpost := h.posts a
  rw [hrunner] at hpost
  cases hpost with
  | taken _ hleft hplain halive => exact hleft

/-- Whoever has a runner and is in no operation can call one. -/
lemma alive (h : Manned w cfg s held) (hrunner : s.runners.get? a = some r)
    (hidle : s.system.calls.get? a = none) : s.system.isAlive a = true := by
  have hpost := h.posts a
  rw [hrunner] at hpost
  cases hpost with
  | taken _ hleft hplain halive => exact halive hidle

/-- The locks of an operation that is left exist. -/
lemma locks_registered (h : Manned w cfg s held)
    (hleft : (w.agenda cfg).outstanding s.system.returns a = op :: ops) :
    ∀ l ∈ op.locks, s.system.state.locks.contains l = true := by
  obtain ⟨-, -, c, htracked⟩ := Tracked.of_reaches h.reaches
  intro l hl
  rw [(startable_of_outstanding (s := s.system.state) hleft).1 l hl]
  exact (htracked.registered lock).mpr rfl

/-- A runner may pass an operation from what it has left to what it is about to call. -/
lemma modifyRunner (h : Manned w cfg s held) {f : Runner → Runner} {op? : Option Operation}
    (hf : ∀ r, s.runners.get? a = some r → r.Plain →
      op?.toList ++ (f r).pending = (held a).toList ++ r.pending ∧ (f r).Plain) :
    Manned w cfg (s.modifyRunner a f) (update held a op?) := by
  refine ⟨h.reaches, h.barred, h.scripts, fun b => ?_, h.answered⟩
  have hpost := h.posts b
  have hget : (s.modifyRunner a f).runners.get? b =
      if b = a then (s.runners.get? b).map f else s.runners.get? b :=
    Table.get?_modify s.runners a b f
  rw [hget]
  by_cases hba : b = a
  · subst hba
    rw [if_pos rfl, update_self]
    cases hr : s.runners.get? b with
    | none =>
      rw [hr] at hpost
      cases hpost with
      | vacant hcall hdone => exact .vacant hcall hdone
    | some r =>
      rw [hr] at hpost
      cases hpost with
      | taken _ hleft hplain halive =>
        obtain ⟨hpending, hplain'⟩ := hf r hr hplain
        exact .taken (f r) (hpending.trans hleft) hplain' halive
  · rw [if_neg hba, update_of_ne hba]
    exact hpost

/-- A runner may change in ways that do not concern its operations. -/
lemma keepRunner (h : Manned w cfg s held) {f : Runner → Runner}
    (hf : ∀ r, s.runners.get? a = some r → r.Plain → (f r).pending = r.pending ∧ (f r).Plain) :
    Manned w cfg (s.modifyRunner a f) held := by
  have hkept : Manned w cfg (s.modifyRunner a f) (update held a (held a)) :=
    h.modifyRunner fun r hr hplain => ⟨congrArg _ (hf r hr hplain).1, (hf r hr hplain).2⟩
  rwa [update_eq_self] at hkept

/-- A good answer may be given at any time. -/
lemma giveAnswer (h : Manned w cfg s held) (ticket : Nat) {answer : Answer}
    (hanswer : ∃ v, answer = .ok v) : Manned w cfg (s.giveAnswer a ticket answer) held := by
  refine { h with answered := fun x hx => ?_ }
  rcases List.mem_cons.mp hx with rfl | hx
  · exact hanswer
  · exact h.answered x hx

/-- Whoever is answered takes note of it. -/
lemma takeReply (h : Manned w cfg s held) {reply : Reply} (hop : op ≠ .retire)
    (hreply : reply = .done ∨ ∃ t, reply = .thread t) :
    Manned w cfg (s.takeReply a op reply) held := by
  rw [Session.takeReply, if_neg hop]
  split
  · exact h
  · next f hf =>
    obtain ⟨r, hr, hframe⟩ := Option.bind_eq_some_iff.mp hf
    have hkeep : ∀ f' : Frame, f'.rest = f.rest → f'.failure = f.failure →
        f'.breaksOff = f.breaksOff →
        Manned w cfg (s.modifyRunner a fun r => { r with frame := some f' }) held :=
      fun f' hrest hfailure hbreaks => h.keepRunner fun r' hr' hplain => by
        cases hr.symm.trans hr'
        refine ⟨by simp [Runner.pending, hframe, hrest], fun f'' hf'' => ?_, hplain.todo⟩
        cases hf''
        exact hfailure ▸ hbreaks ▸ hplain.frame f hframe
    rcases hreply with rfl | ⟨t, rfl⟩
    · exact hkeep f rfl rfl rfl
    · exact hkeep _ rfl rfl rfl

/-- A session goes on with another system if everybody stays at its post, or gets one. -/
lemma moved (h : Manned w cfg s (update s.system.called? a (some op)))
    (hstep : (w.agenda cfg).Step s.system sys') (hspares : System.Spares a s.system sys')
    {runners : Table Agent Runner}
    (hothers : ∀ b, b ≠ a → Post (w.agenda cfg) sys' b (s.system.called? b) (runners.get? b))
    (hown : Post (w.agenda cfg) sys' a (sys'.called? a) (runners.get? a)) :
    Manned w cfg { s with system := sys', runners } sys'.called? where
  reaches := h.reaches.step hstep
  barred := h.barred
  scripts := h.scripts
  posts b := by
    by_cases hba : b = a
    · subst hba
      exact hown
    · have hcalled : sys'.called? b = s.system.called? b :=
        congrArg (Option.map _) (hspares.calls b hba)
      rw [hcalled]
      exact hothers b hba
  answered := h.answered

/-- Everybody may become a primary. -/
lemma eligible_eq (h : Manned w cfg s held) : s.eligible = (w.agenda cfg).eligible := by
  funext t
  rw [Session.eligible, h.barred]
  rfl

/-- The runner of a unit has all of the unit left to do. -/
lemma runnerFor_scripted (h : Manned w cfg s held) {n : Nat} (hn : n < w.size cfg)
    (returns : List Return) : (s.runnerFor (.scripted n)).pending =
      (w.agenda cfg).outstanding (Agenda.submitted n :: returns) (.unit ⟨n⟩) ∧
      (s.runnerFor (.scripted n)).Plain := by
  have hrunner : s.runnerFor (.scripted n) =
      { todo := (w.script lock).numbered, ending := some .returns } := by
    simp [Session.runnerFor, h.scripts, hn, script]
  have hcommands : (w.script lock).numbered.map (·.2) = (w.script lock).commands := by
    simp [Script.numbered, Function.comp_def]
  rw [hrunner]
  refine ⟨?_, .of_frame_eq_none rfl fun x hx => ?_⟩
  · rw [Agenda.outstanding_submitted, w.routine_agenda cfg hn]
    refine congrArg (· ++ [Operation.retire]) ?_
    calc (w.script lock).numbered.flatMap (·.2.operations)
        = ((w.script lock).numbered.map (·.2)).flatMap Command.operations :=
          (List.flatMap_map ..).symm
      _ = (sections w.criticalSections).flatMap fun i => [i.order.operation] := by
          rw [hcommands, commands_script, List.flatMap_map]
          rfl
      _ = (sections w.criticalSections).map (·.order.operation) := List.map_eq_flatMap.symm
  · have hmem : x.2 ∈ (w.script lock).commands := hcommands ▸ List.mem_map_of_mem hx
    rw [commands_script] at hmem
    obtain ⟨i, -, hi⟩ := List.mem_map.mp hmem
    exact ⟨_, hi.symm⟩

/-! ### What becomes of a move -/

section Moves

variable (h : Manned w cfg s (update s.system.called? a (some op)))
  (hrunner : s.runners.get? a = some r) (hstep : (w.agenda cfg).Step s.system sys')
  (hspares : System.Spares a s.system sys')

include h hspares

/-- Others stay at their posts if nobody new is alive. -/
lemma spared (hold : ∀ t, sys'.state.isAlive t = true → s.system.state.isAlive t = true)
    (houtstanding : ∀ b, b ≠ a → (w.agenda cfg).outstanding sys'.returns b =
      (w.agenda cfg).outstanding s.system.returns b) (b : Agent) (hba : b ≠ a) :
    Post (w.agenda cfg) sys' b (s.system.called? b) (s.runners.get? b) := by
  have hpost := h.posts b
  rw [update_of_ne hba] at hpost
  exact hpost.spared hspares hba (fun t _ => hold t) (houtstanding b hba)

include hrunner hstep

/-- The operation goes on. -/
lemma goesOn {call : Call} (hcall : sys'.calls.get? a = some call) (hop : call.operation = op)
    (hreturns : sys'.returns = s.system.returns)
    (hold : ∀ t, sys'.state.isAlive t = true → s.system.state.isAlive t = true) :
    Manned w cfg { s with system := sys' } sys'.called? := by
  refine h.moved hstep hspares (h.spared hspares hold fun _ _ => by rw [hreturns]) ?_
  have hleft := h.left hrunner
  rw [update_self] at hleft
  rw [hrunner, System.called?, hcall, Option.map_some, hop]
  refine .taken r ?_ (h.plain hrunner) fun hnone => by cases hcall.symm.trans hnone
  rw [hreturns]
  exact hleft

/-- A unit is done with an operation, and not yet with all of them. -/
lemma done {t : ThreadId} (ha : a = .unit t) (hop : op ≠ .retire)
    (hcall : sys'.calls.get? a = none)
    (hreturns : sys'.returns = ⟨a, op, .done⟩ :: s.system.returns)
    (hold : ∀ t, sys'.state.isAlive t = true → s.system.state.isAlive t = true)
    (halive : sys'.state.isAlive t = true) :
    Manned w cfg { s with system := sys' } sys'.called? := by
  subst ha
  refine h.moved hstep hspares (h.spared hspares hold fun b hba => ?_) ?_
  · rw [hreturns]
    exact Agenda.outstanding_of_ne hba
  · have hleft := h.left hrunner
    rw [update_self] at hleft
    rw [hrunner, System.called?, hcall]
    refine .taken r ?_ (h.plain hrunner) fun _ => halive
    rw [hreturns]
    exact (Agenda.outstanding_of_done hleft.symm hop).symm

omit hrunner in
/-- A unit retired, and its runner is gone. -/
lemma retired {t : ThreadId} (ha : a = .unit t) (hcall : sys'.calls.get? a = none)
    (hreturns : sys'.returns = ⟨a, op, .done⟩ :: s.system.returns)
    (hold : ∀ t, sys'.state.isAlive t = true → s.system.state.isAlive t = true)
    (hdead : sys'.state.isAlive t = false) :
    Manned w cfg { s with system := sys', runners := s.runners.erase a } sys'.called? := by
  subst ha
  refine h.moved hstep hspares (fun b hba => ?_) ?_
  · rw [Table.get?_erase, if_neg hba]
    refine h.spared hspares hold (fun b hba => ?_) b hba
    rw [hreturns]
    exact Agenda.outstanding_of_ne hba
  · rw [Table.get?_erase, if_pos rfl]
    refine .vacant hcall fun halive => ?_
    cases hdead.symm.trans halive

/-- A unit was submitted, and its thread has a runner. -/
lemma submitted {n : Nat} (ha : a = .client 0) (hop : op = .submit (.scripted n))
    (hcall : sys'.calls.get? a = none)
    (hreturns : sys'.returns = Agenda.submitted n :: s.system.returns)
    (hidle : sys'.calls.get? (.unit ⟨n⟩) = none)
    (hold : ∀ t, sys'.state.isAlive t = true → s.system.state.isAlive t = true ∨ t = ⟨n⟩)
    (halive : sys'.state.isAlive ⟨n⟩ = true) :
    Manned w cfg { s with
      system := sys'
      runners := s.runners.set (.unit ⟨n⟩) (s.runnerFor (.scripted n)) } sys'.called? := by
  subst ha
  have hleft := h.left hrunner
  rw [update_self] at hleft
  refine h.moved hstep hspares (fun b hba => ?_) ?_
  · rw [Table.get?_set]
    split
    · next hb =>
      subst hb
      obtain ⟨hfirst, hlt⟩ := Agenda.lt_of_outstanding hleft.symm
      cases hop.symm.trans hfirst
      obtain ⟨hpending, hplain⟩ :=
        h.runnerFor_scripted (Nat.lt_of_lt_of_eq hlt length_units) s.system.returns
      rw [System.called?, ← hspares.calls _ hba, hidle]
      refine .taken _ ?_ hplain fun _ => halive
      rw [hreturns]
      exact hpending
    · next hb =>
      have hpost := h.posts b
      rw [update_of_ne hba] at hpost
      refine hpost.spared hspares hba (fun t ht halive => ?_) ?_
      · exact (hold t halive).resolve_right fun heq => hb (ht.trans (congrArg Agent.unit heq))
      · rw [hreturns]
        exact Agenda.outstanding_of_submitted_of_ne hba hb
  · rw [Table.get?_set, if_neg (by simp), hrunner, System.called?, hcall]
    refine .taken r ?_ (h.plain hrunner) fun _ => rfl
    rw [hreturns]
    exact (Agenda.outstanding_of_submitted hleft.symm).symm

end Moves

/-- A move that somebody with a runner makes follows the agenda, and everybody stays manned. -/
theorem perform (h : Manned w cfg s (update s.system.called? a (some op)))
    (hnames : cfg.namesWorkers = true) (hrunner : s.runners.get? a = some r)
    (hmakes : s.system.Makes a op m) (hpermits : (w.agenda cfg).permits s.system m = true)
    (hm : s.system.move? s.eligible m = some sys') :
    (w.agenda cfg).Step s.system (s.perform a m).system ∧
      System.Spares a s.system (s.perform a m).system ∧
      Manned w cfg (s.perform a m) (s.perform a m).system.called? := by
  have hreach : System.Reachable cfg s.system := h.reaches.reachable
  obtain ⟨-, -, c, htracked⟩ := Tracked.of_reaches h.reaches
  have hm' : s.system.move? (w.agenda cfg).eligible m = some sys' := h.eligible_eq ▸ hm
  have hspares := hmakes.spares (Invariant.of_reachable hreach) hm'
  have hstep : (w.agenda cfg).Step s.system sys' := ⟨m, hpermits, hm'⟩
  have hsystem : (s.perform a m).system = sys' := by
    rw [Session.system_perform, hm, Option.getD_some]
  rw [hsystem]
  refine ⟨hstep, hspares, ?_⟩
  cases htracked.news hreach hnames hmakes hpermits hm' with
  | goesOn call hcall hop hreturns hscheduled hold =>
    rw [Session.perform_of_call hm (by rw [hscheduled]; exact Nat.lt_irrefl _) hcall]
    exact h.goesOn hrunner hstep hspares hcall hop hreturns hold
  | done t ha hcall hreturns hscheduled hold halive =>
    rw [Session.perform_of_return hm hcall hreturns,
      Session.adoptSince_of_not_lt (by rw [hscheduled]; exact Nat.lt_irrefl _)]
    by_cases hop : op = .retire
    · have hdead := Bool.eq_false_iff.mpr (mt halive.mp (not_not.mpr hop))
      rw [Session.takeReply, if_pos hop]
      exact h.retired hstep hspares ha hcall hreturns hold hdead
    · exact takeReply (h.done hrunner hstep hspares ha hop hcall hreturns hold (halive.mpr hop))
        hop (.inl rfl)
  | submitted n ha hop hcall hreturns hidle hlisted hscheduled hold halive =>
    rw [Session.perform_of_return hm hcall hreturns, Session.adoptSince_of_lt hscheduled hlisted]
    exact takeReply
      (h.submitted hrunner hstep hspares ha hop hcall hreturns hidle hold halive) nofun
      (.inr ⟨_, rfl⟩)

/-! ### Small steps of runners -/

/-- What a small step of a runner of the workload is. -/
inductive Follows (w : Workload) (cfg : Config) (s : Session) (a : Agent) (r : Runner) :
    Session → Prop
  /-- It makes a move as the agenda says. -/
  | step (s' : Session) (hstep : (w.agenda cfg).Step s.system s'.system)
    (hspares : System.Spares a s.system s'.system) : Follows w cfg s a r s'
  /-- It does one of its chores. -/
  | chore (s' : Session) (hsystem : s'.system = s.system) (hchores : s'.chores < s.chores) :
    Follows w cfg s a r s'
  /-- It has nothing to do. -/
  | idle (hfree : s.system.inside = none) (hready : s.isReady a r = false) : Follows w cfg s a r s

/-- A runner of an agent that is in no operation calls the next one. -/
lemma performCall (h : Manned w cfg s (update s.system.called? a (some op)))
    (hnames : cfg.namesWorkers = true) (hrunner : s.runners.get? a = some r)
    (hinside : s.system.inside = none) (hidle : s.system.calls.get? a = none) :
    (w.agenda cfg).Step s.system (s.perform a (.call a op)).system ∧
      System.Spares a s.system (s.perform a (.call a op)).system ∧
      Manned w cfg (s.perform a (.call a op)) (s.perform a (.call a op)).system.called? := by
  have hleft : op :: r.pending = (w.agenda cfg).outstanding s.system.returns a := by
    have hleft := h.left hrunner
    rwa [update_self] at hleft
  have hpermits : (w.agenda cfg).permits s.system (.call a op) = true := by
    simp [Agenda.permits, Agenda.next?_eq_head?, ← hleft]
  obtain ⟨-, o, ho⟩ := startable_of_outstanding (s := s.system.state) hleft.symm
  have hm : s.system.move? s.eligible (.call a op) = some (s.system.apply a op o) :=
    System.move?_call_eq_some_iff.mpr
      ⟨⟨⟨⟨hinside, hidle⟩, h.alive hrunner hidle⟩, h.locks_registered hleft.symm⟩, o, ho, rfl⟩
  exact h.perform hnames hrunner (.call op) hpermits hm

/-- The end of a body leaves all runners manned. -/
lemma endBody {t : ThreadId} {e : Ending}
    (h : Manned w cfg (s.modifyRunner (.unit t) fun r => { r with ending := none }) held) :
    Manned w cfg (s.endBody t r e) held := by
  unfold Session.endBody
  dsimp only
  split <;> split <;> exact ⟨h.reaches, h.barred, h.scripts, h.posts, h.answered⟩

/-- A command of the workload becomes a frame with its operation. -/
lemma beginCommand (h : Manned w cfg s (update held a (some op)))
    (hrunner : s.runners.get? a = some r) (hframe : r.frame = none) (ticket : Nat) :
    Manned w cfg (s.beginCommand a ticket (.operation op)) (update held a none) := by
  have hleft := h.left hrunner
  rw [update_self] at hleft
  have hbegun : s.beginCommand a ticket (.operation op) =
      s.modifyRunner a fun r =>
        { r with frame := some { ticket, rest := [op], locks := op.locks } } :=
    if_pos (List.all_eq_true.mpr (h.locks_registered hleft.symm))
  have hpassed : update (update held a (some op)) a none = update held a none := update_idem ..
  rw [hbegun, ← hpassed]
  refine h.modifyRunner fun r' hr' hplain => ?_
  cases hrunner.symm.trans hr'
  refine ⟨by simp [Runner.pending, hframe], fun f hf => ?_, hplain.todo⟩
  cases hf
  exact ⟨rfl, rfl⟩

/-- A command none of whose operations was refused has a good answer. -/
lemma exists_answer {f : Frame} (h : f.failure = none ∧ f.breaksOff = none) :
    ∃ v, f.answer = .ok v := by
  rw [Frame.answer, h.1, h.2]
  dsimp only
  split
  · exact ⟨_, rfl⟩
  · exact ⟨_, rfl⟩
  · exact ⟨_, rfl⟩

/-- The client is in no body that could end. -/
lemma ending_eq_none {n : Nat} (h : Manned w cfg s held)
    (hrunner : s.runners.get? (.client n) = some r) : r.ending = none := by
  have hleft := h.left hrunner
  refine Option.eq_none_iff_forall_ne_some.mpr fun e hending => ?_
  have hretires : .retire ∈ (w.agenda cfg).outstanding s.system.returns (.client n) := by
    rw [← hleft]
    simp [Runner.pending, hending]
  cases n with
  | zero => simp [Agenda.outstanding] at hretires
  | succ n => cases hretires

/-- A runner of an agent in an operation goes on with it. -/
lemma goOn (h : Manned w cfg s s.system.called?) (hnames : cfg.namesWorkers = true)
    (hrunner : s.runners.get? a = some r) {call : Call} (hcall : s.system.calls.get? a = some call)
    (hmakes : s.system.Makes a call.operation m)
    (hpermits : (w.agenda cfg).permits s.system m = true)
    (hm : s.system.move? s.eligible m = some sys') :
    Follows w cfg s a r (s.perform a m) ∧
      Manned w cfg (s.perform a m) (s.perform a m).system.called? := by
  have hcalled : update s.system.called? a (some call.operation) = s.system.called? := by
    have hself : s.system.called? a = some call.operation := by
      rw [System.called?, hcall, Option.map_some]
    rw [← hself]
    exact update_eq_self a _
  obtain ⟨hstep, hspares, hmanned⟩ :=
    perform (hcalled.symm ▸ h) hnames hrunner hmakes hpermits hm
  exact ⟨.step _ hstep hspares, hmanned⟩

section Outside

variable (h : Manned w cfg s s.system.called?) (hrunner : s.runners.get? a = some r)
  (hidle : s.system.calls.get? a = none)

include h hrunner hidle

/-- The next operation of a command is called. -/
lemma callNext (hnames : cfg.namesWorkers = true) (hfree : s.system.inside = none) {f : Frame}
    (hframe : r.frame = some f) {rest : List Operation} (hrest : f.rest = op :: rest)
    (hnext : s' = (s.modifyRunner a fun r => { r with frame := some { f with rest } }).perform a
      (.call a op)) :
    Follows w cfg s a r s' ∧ Manned w cfg s' s'.system.called? := by
  subst hnext
  have htaken : Manned w cfg (s.modifyRunner a fun r => { r with frame := some { f with rest } })
      (update s.system.called? a (some op)) := h.modifyRunner fun r' hr' hplain => by
    cases hrunner.symm.trans hr'
    refine ⟨?_, fun f' hf' => ?_, hplain.todo⟩
    · simp [Runner.pending, hframe, hrest, System.called?_of_idle hidle]
    · cases hf'
      exact hplain.frame f hframe
  obtain ⟨hstep, hspares, hmanned⟩ :=
    htaken.performCall hnames (Session.get?_modifyRunner _ hrunner) hfree hidle
  exact ⟨.step _ hstep hspares, hmanned⟩

omit hidle in
/-- A command that is over is answered. -/
lemma endCommand (htidy : s.Tidy) {f : Frame} (hframe : r.frame = some f) (hrest : f.rest = [])
    (hnext : s' = (s.giveAnswer a f.ticket f.answer).modifyRunner a fun r =>
      { r with frame := none }) :
    Follows w cfg s a r s' ∧ Manned w cfg s' s'.system.called? := by
  subst hnext
  have hanswer := exists_answer ((h.plain hrunner).frame f hframe)
  refine ⟨.chore _ rfl ?_, (h.giveAnswer f.ticket hanswer).keepRunner fun r' hr' hplain => ?_⟩
  · exact Nat.lt_of_succ_le (Nat.le_of_eq (Session.chores_endCommand htidy hrunner hframe _))
  · cases hrunner.symm.trans hr'
    exact ⟨by simp [Runner.pending, hframe, hrest], .of_frame_eq_none rfl hplain.todo⟩

/-- The next command begins. -/
lemma nextCommand (htidy : s.Tidy) (hframe : r.frame = none) {ticket : Nat} {cmd : Command}
    {todo : List (Nat × Command)} (htodo : r.todo = (ticket, cmd) :: todo)
    (hnext : s' = (s.modifyRunner a fun r => { r with todo }).beginCommand a ticket cmd) :
    Follows w cfg s a r s' ∧ Manned w cfg s' s'.system.called? := by
  subst hnext
  have hcalled := System.called?_of_idle hidle
  obtain ⟨op, rfl⟩ : ∃ op, cmd = .operation op :=
    (h.plain hrunner).todo (ticket, cmd) (htodo ▸ List.mem_cons_self)
  have hpopped : Manned w cfg (s.modifyRunner a fun r => { r with todo })
      (update s.system.called? a (some op)) := h.modifyRunner fun r' hr' hplain => by
    cases hrunner.symm.trans hr'
    refine ⟨by simp [Runner.pending, hframe, htodo, hcalled, Command.operations], hplain.frame,
      fun x hx => hplain.todo x (htodo ▸ List.mem_cons_of_mem _ hx)⟩
  have hbegun := hpopped.beginCommand (Session.get?_modifyRunner _ hrunner) hframe ticket
  rw [← hcalled, update_eq_self] at hbegun
  refine ⟨.chore _ (Session.system_beginCommand _ _) ?_, ?_⟩
  · exact Session.chores_beginCommand_lt htidy hrunner hframe htodo
  · rw [Session.system_beginCommand]
    exact hbegun

/-- The body of a unit is over, and its thread retires. -/
lemma retire {t : ThreadId} (ha : a = .unit t) (hnames : cfg.namesWorkers = true)
    (hfree : s.system.inside = none) (hframe : r.frame = none) (htodo : r.todo = []) {e : Ending}
    (hending : r.ending = some e) (hnext : s' = (s.endBody t r e).perform a (.call a .retire)) :
    Follows w cfg s a r s' ∧ Manned w cfg s' s'.system.called? := by
  subst ha hnext
  have hended : Manned w cfg (s.endBody t r e)
      (update s.system.called? (.unit t) (some .retire)) :=
    endBody (h.modifyRunner fun r' hr' hplain => by
      cases hrunner.symm.trans hr'
      refine ⟨?_, hplain.frame, hplain.todo⟩
      simp [Runner.pending, hframe, htodo, hending, System.called?_of_idle hidle])
  rw [← Session.system_endBody t e] at hended hfree hidle
  obtain ⟨hstep, hspares, hmanned⟩ :=
    hended.performCall hnames (Session.get?_endBody t e hrunner) hfree hidle
  rw [Session.system_endBody] at hstep hspares
  exact ⟨.step _ hstep hspares, hmanned⟩

end Outside

/-- Whatever a runner does next, the session goes on as the agenda says, and everybody stays
manned. -/
theorem act (h : Manned w cfg s s.system.called?) (htidy : s.Tidy)
    (hnames : cfg.namesWorkers = true) (hrunner : s.runners.get? a = some r)
    (hinside : ∀ b, s.system.inside = some b → b = a) :
    Follows w cfg s a r (s.act a r) ∧ Manned w cfg (s.act a r) (s.act a r).system.called? := by
  unfold Session.act
  split
  · next hin =>
    obtain ⟨call, hcall⟩ := Option.isSome_iff_exists.mp
      ((Invariant.of_reachable h.reaches.reachable).inside a hin)
    exact h.goOn hnames hrunner hcall (.advance call hin hcall) rfl
      (by simp only [System.move?, hin, hcall]; rfl)
  next hin =>
  have hfree : s.system.inside = none := Option.eq_none_iff_forall_ne_some.mpr fun b hb =>
    hin (hinside b hb ▸ hb)
  split
  · next hcontains =>
    obtain ⟨call, hcall⟩ := Option.isSome_iff_exists.mp hcontains
    exact h.goOn hnames hrunner hcall (.enter call hcall) rfl
      (System.move?_enter_eq_some_iff.mpr ⟨⟨hfree, by simp [hcall]⟩, rfl⟩)
  next hcontains =>
  have hidle : s.system.calls.get? a = none := Option.not_isSome_iff_eq_none.mp hcontains
  split
  · next f hframe =>
    split
    · next op rest hrest => exact h.callNext hrunner hidle hnames hfree hframe hrest rfl
    · next hrest => exact h.endCommand hrunner htidy hframe hrest rfl
  · next hframe =>
    split
    · next ticket cmd todo htodo => exact h.nextCommand hrunner hidle htidy hframe htodo rfl
    · next htodo =>
      -- The client is in no body that could end, and a unit without an ending waits.
      cases hending : r.ending with
      | none =>
        have hwaits : s.isReady a r = false := by
          simp [Session.isReady, hcontains, hframe, htodo, hending]
        cases a <;> exact ⟨.idle hfree hwaits, h⟩
      | some e =>
        cases a with
        | client n => cases hending.symm.trans (h.ending_eq_none hrunner)
        | unit t => exact h.retire hrunner hidle rfl hnames hfree hframe htodo hending rfl

/-! ### Whole runs -/

/-- Whatever the order in which runners go on, everybody stays manned. -/
theorem runs (h : Manned w cfg s s.system.called?) (htidy : s.Tidy)
    (hnames : cfg.namesWorkers = true) (hruns : Session.Runs s s') :
    Manned w cfg s' s'.system.called? := by
  induction hruns with
  | refl => exact h
  | tail hruns hgoes ih =>
    obtain ⟨a, r, hrunner, hinside, rfl⟩ := hgoes
    exact (ih.act (htidy.runs hruns) hnames hrunner hinside).2

/-- A runner that cannot go on outside of all operations has nothing left. -/
lemma pending_of_not_ready (hready : s.isReady a r = false)
    (hidle : s.system.calls.get? a = none) : r.pending = [] := by
  have hnothing : (r.frame.isSome || !r.todo.isEmpty || r.ending.isSome) = false := by
    simpa [Session.isReady, Table.contains, hidle] using hready
  simp only [Bool.or_eq_false_iff, Option.isSome_eq_false_iff, Option.isNone_iff_eq_none,
    Bool.not_eq_false', List.isEmpty_iff] at hnothing
  obtain ⟨⟨hframe, htodo⟩, hending⟩ := hnothing
  rw [Runner.pending, hframe, htodo, hending]
  rfl

/-- Where nobody can go on the system is at rest. -/
theorem stops (h : Manned w cfg s s.system.called?) (hnext : s.next? = none) :
    (w.agenda cfg).Stops s.system := by
  have hinv := Invariant.of_reachable h.reaches.reachable
  have hrunner : ∀ {a}, (s.system.calls.get? a).isSome → ∃ r, s.runners.get? a = some r := by
    intro a hcall
    have hpost := h.posts a
    cases hr : s.runners.get? a with
    | some r => exact ⟨r, rfl⟩
    | none =>
      rw [hr] at hpost
      cases hpost with
      | vacant hnone hdone => simp [hnone] at hcall
  have hfree : s.system.inside = none := by
    refine Option.eq_none_iff_forall_ne_some.mpr fun a ha => ?_
    obtain ⟨r, hr⟩ := hrunner (hinv.inside a ha)
    simp [Session.next?, ha, hr] at hnext
  have hready : ∀ {a r}, s.runners.get? a = some r → s.isReady a r = false := by
    intro a r hr
    rw [Session.next?, hfree] at hnext
    simpa using List.find?_eq_none.mp hnext (a, r) (Table.mem_entries_of_get?_eq_some hr)
  refine ⟨hfree, fun a => ?_, fun a op hpermits => ?_⟩
  · -- Whoever is in an operation has a runner, which is not ready.
    cases hcall : s.system.calls.get? a with
    | none => simp [System.canProceed, hcall]
    | some call =>
      obtain ⟨r, hr⟩ := hrunner (a := a) (by simp [hcall])
      have hstuck := hready hr
      rw [Session.isReady, if_pos (by simp [Table.contains, hcall]), h.eligible_eq] at hstuck
      exact hstuck
  · -- Whoever could call an operation would have a runner with something left.
    refine Option.eq_none_iff_forall_ne_some.mpr fun sys' hm => ?_
    obtain ⟨⟨⟨⟨-, hidle⟩, halive⟩, -⟩, -⟩ := System.move?_call_eq_some_iff.mp hm
    have hasked : (w.agenda cfg).next? s.system a = some op := by
      simpa [Agenda.permits] using hpermits
    rw [Agenda.next?_eq_head?] at hasked
    have hpost := h.posts a
    cases hr : s.runners.get? a with
    | none =>
      rw [hr] at hpost
      cases hpost with
      | vacant hnone hdone => simp [hdone halive] at hasked
    | some r =>
      have hleft := h.left hr
      rw [System.called?_of_idle hidle, pending_of_not_ready (hready hr) hidle] at hleft
      simp [← hleft] at hasked

/-- On a fresh scheduler nobody is in an operation, and no unit can call one. -/
lemma post_of_untouched (h : Agenda.Untouched sys') (hclient : a = .client 0 → w.size cfg = 0) :
    Post (w.agenda cfg) sys' a (sys'.called? a) none := by
  refine .vacant (h.calls a) fun halive => ?_
  cases a with
  | unit t =>
    have hnobody : sys'.isAlive (.unit t) = false := by simp [System.isAlive, h.records]
    cases hnobody.symm.trans halive
  | client n =>
    cases n with
    | zero => simp [Agenda.outstanding, length_units, hclient rfl]
    | succ n => rfl

/-- The client has all of the agenda left to submit. -/
lemma post_of_submissions (h : Agenda.Untouched sys') :
    Post (w.agenda cfg) sys' (.client 0) (sys'.called? (.client 0))
      (some { todo := submissions 0 (w.size cfg) .scripted }) := by
  have hcalled : sys'.called? (.client 0) = none := by rw [System.called?, h.calls]; rfl
  rw [hcalled]
  refine .taken _ ?_ (.of_frame_eq_none rfl fun x hx => ?_) fun _ => rfl
  · have hnone : Agenda.submissions sys'.returns = 0 := by rw [h.returns]; rfl
    have hpending : (submissions 0 (w.size cfg) .scripted).flatMap (·.2.operations) =
        (List.range (w.size cfg)).map fun i => Operation.submit (.scripted i) := by
      rw [submissions, List.flatMap_map]
      exact List.map_eq_flatMap.symm
    rw [Agenda.outstanding, hnone, length_units, Nat.sub_zero, ← List.range_eq_range', ← hpending]
    simp [Runner.pending]
  · obtain ⟨i, -, rfl⟩ := List.mem_map.mp hx
    exact ⟨_, rfl⟩

end Manned

/-- The launch of some units writes a script for each of them, and gives the client its runner. -/
lemma launch_eq {w : Workload} {s s' : Session} (hmove : s.move .newLock = s')
    (hscripts : s'.scripts = []) (n : Nat) : w.launch s 0 n =
      if n = 0 then s'
      else { s' with
        scripts := List.replicate n (w.script s.system.state.nextLock)
        runners := s'.runners.set (.client 0) { todo := submissions 0 n .scripted } } := by
  rw [launch, hmove, hscripts]
  simp only [List.nil_append, List.length_nil, Nat.zero_add]
  rfl

/-- The lock of the workload is created first, on a scheduler that nobody used. -/
lemma move_newLock_of_start (w : Workload) {cfg : Config} {first : Session}
    (h : Session.start cfg none 0 [] = .ok first) : first.system.state.nextLock = lock ∧
      ∃ sys, (w.agenda cfg).start? = some sys ∧ first.move .newLock = { system := sys } := by
  have hstart : (System.initial cfg).map (fun sys => ({ system := sys } : Session)) = .ok first := h
  have hrun : (w.agenda cfg).start? = (System.initial cfg).toOption.bind fun sys =>
    System.follow? sys (fun _ => true) [.newLock] := rfl
  cases hinitial : System.initial cfg with
  | error e =>
    rw [hinitial] at hstart
    cases hstart
  | ok sys =>
    rw [hinitial] at hstart hrun
    cases hstart
    obtain ⟨rounds, -, rfl⟩ := Invariant.eq_of_initial hinitial
    exact ⟨rfl, _, hrun, rfl⟩

/-- Once the workload is launched on a fresh scheduler everybody is manned. -/
theorem Manned.of_launch {w : Workload} {cfg : Config} {first : Session}
    (hfirst : Session.start cfg none 0 [] = .ok first) :
    Manned w cfg (w.launch first 0 (w.size cfg))
      (w.launch first 0 (w.size cfg)).system.called? := by
  obtain ⟨hlock, sys, hstart, hmove⟩ := w.move_newLock_of_start hfirst
  have huntouched := Agenda.untouched_of_start hstart
  rw [launch_eq hmove rfl, hlock]
  split
  · next hsize =>
    refine ⟨⟨sys, hstart, .refl⟩, rfl, by rw [hsize]; rfl, fun a => ?_, nofun⟩
    exact post_of_untouched huntouched fun _ => hsize
  · refine ⟨⟨sys, hstart, .refl⟩, rfl, rfl, fun a => ?_, nofun⟩
    dsimp only
    rw [Table.get?_set]
    split
    · next ha =>
      subst ha
      exact post_of_submissions huntouched
    · next ha => exact post_of_untouched huntouched fun hclient => absurd hclient ha

end Workload

end RoundScheduler
