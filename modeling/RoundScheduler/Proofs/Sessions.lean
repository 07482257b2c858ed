import RoundScheduler.Batch
import RoundScheduler.CommandLine.Execution
import RoundScheduler.Proofs.Transition
import RoundScheduler.Scenario

/-!
# Sessions make moves

Whatever a runner does, the system of its session stays what it is or makes a move. So the systems
behind scenarios, batches and command lines are systems that can be reached, and what holds of all
of those holds of everything that is shown. A session that nobody interferes with goes on by small
steps, in an order that is left open; `Session.settle?` is one such run to its end.
-/

namespace RoundScheduler

open Relation

namespace Session

variable {s s' : Session} {a : Agent} {r : Runner} {m : Move} {c : Config}

/-! ### What a runner does to the system -/

/-- A change to a runner leaves the system alone. -/
@[simp] lemma system_modifyRunner (f : Runner → Runner) :
    (s.modifyRunner a f).system = s.system := rfl

/-- A runner is found changed where it was. -/
lemma get?_modifyRunner (f : Runner → Runner) (h : s.runners.get? a = some r) :
    (s.modifyRunner a f).runners.get? a = some (f r) := by
  rw [modifyRunner, Table.get?_modify, if_pos rfl, h, Option.map_some]

/-- An answer leaves the system alone. -/
@[simp] lemma system_giveAnswer (ticket : Nat) (answer : Answer) :
    (s.giveAnswer a ticket answer).system = s.system := rfl

/-- A new runner leaves the system alone. -/
@[simp] lemma system_adoptSince (before : Nat) : (s.adoptSince before).system = s.system := by
  unfold adoptSince
  split
  · rfl
  · split <;> rfl

/-- A runner that takes note of a reply leaves the system alone. -/
@[simp] lemma system_takeReply (op : Operation) (reply : Reply) :
    (s.takeReply a op reply).system = s.system := by
  unfold takeReply
  split
  · rfl
  · split
    · rfl
    · split <;> rfl

/-- A command that begins leaves the system alone. -/
@[simp] lemma system_beginCommand (ticket : Nat) (cmd : Command) :
    (s.beginCommand a ticket cmd).system = s.system := by
  unfold beginCommand
  dsimp only
  split
  · split
    · rfl
    · cases cmd <;> rfl
  · rfl

/-- The end of a body leaves the system alone. -/
@[simp] lemma system_endBody (t : ThreadId) (e : Ending) :
    (s.endBody t r e).system = s.system := by
  unfold endBody
  dsimp only
  split <;> split <;> rfl

/-- At the end of a body its runner has no ending left. -/
lemma get?_endBody (t : ThreadId) (e : Ending) (h : s.runners.get? (.unit t) = some r) :
    (s.endBody t r e).runners.get? (.unit t) = some { r with ending := none } := by
  unfold endBody
  dsimp only
  split <;> split <;> exact get?_modifyRunner _ h

/-- A move that is possible is made, and nothing else happens to the system. -/
lemma system_perform : (s.perform a m).system = (s.system.move? s.eligible m).getD s.system := by
  unfold perform
  cases s.system.move? s.eligible m with
  | none =>
    dsimp only
    split <;> rfl
  | some sys =>
    dsimp only
    split
    · rw [system_takeReply, system_adoptSince]
      rfl
    · rw [system_adoptSince]
      rfl

/-- Nobody gets a runner as long as nobody is listed. -/
lemma adoptSince_of_not_lt {before : Nat} (h : ¬ before < s.system.state.scheduled) :
    s.adoptSince before = s := by
  unfold adoptSince
  split
  · rfl
  · rw [if_neg h]

/-- A thread that was listed just now gets a runner. -/
lemma adoptSince_of_lt {before : Nat} {t : ThreadId} {w : Work}
    (h : before < s.system.state.scheduled)
    (hlisted : s.system.state.journal.head?.bind Entry.listed? = some (t, w)) :
    s.adoptSince before = { s with runners := s.runners.set (.unit t) (s.runnerFor w) } := by
  simp only [adoptSince, hlisted, if_pos h]

/-- A move after which the agent is still in its operation changes the system alone, unless a thread
was listed. -/
lemma perform_of_call {sys : System} {call : Call} (hm : s.system.move? s.eligible m = some sys)
    (hscheduled : ¬ s.system.state.scheduled < sys.state.scheduled)
    (hcall : sys.calls.get? a = some call) : s.perform a m = { s with system := sys } := by
  have hadopt : ({ s with system := sys }).adoptSince s.system.state.scheduled =
      { s with system := sys } := adoptSince_of_not_lt hscheduled
  simp only [perform, hm, hcall, hadopt]

/-- After a move that answers the agent its runner takes note of the reply. -/
lemma perform_of_return {sys : System} {ret : Return} {earlier : List Return}
    (hm : s.system.move? s.eligible m = some sys) (hcall : sys.calls.get? a = none)
    (hreturns : sys.returns = ret :: earlier) :
    s.perform a m = (({ s with system := sys }).adoptSince s.system.state.scheduled).takeReply a
      ret.operation ret.reply := by
  simp only [perform, hm, hcall, hreturns]

/-- The same goes for moves that no runner makes. -/
lemma system_move : (s.move m).system = (s.system.move? s.eligible m).getD s.system := by
  unfold move
  split
  · next h => rw [h]; rfl
  · next h => rw [h]; rfl

/-- A move that is made only if it is possible leads to a system that can be reached. -/
lemma path_getD (sys : System) (eligible : ThreadId → Bool) (m : Move) :
    System.Path sys ((sys.move? eligible m).getD sys) := by
  cases h : sys.move? eligible m with
  | none => exact .refl
  | some sys' => exact .single ⟨eligible, m, h⟩

/-- A runner performs at most one move. -/
lemma path_perform : System.Path s.system (s.perform a m).system :=
  system_perform ▸ path_getD ..

/-- A small step of a runner leaves the system as it is, or it is a move. -/
theorem path_act : System.Path s.system (s.act a r).system := by
  unfold act
  split
  · exact path_perform
  split
  · exact path_perform
  split
  · split
    · exact path_perform (s := s.modifyRunner a _)
    · exact .refl
  · split
    · rw [system_beginCommand]
      exact .refl
    · split
      · exact system_endBody (s := s) (r := r) _ _ ▸ path_perform
      · exact .refl

/-! ### Runs -/

/-- A session goes on by a small step of somebody with a runner: of whoever is inside the critical
section, or else of anybody. -/
def Goes (s s' : Session) : Prop :=
  ∃ a r, s.runners.get? a = some r ∧ (∀ b, s.system.inside = some b → b = a) ∧ s' = s.act a r

/-- Somebody with a runner can go on: whoever is inside the critical section, or else anybody who
would not just fall asleep again. -/
def IsAble (s : Session) (a : Agent) (r : Runner) : Prop :=
  s.system.inside = some a ∨ s.system.inside = none ∧ s.isReady a r = true

/-- Nobody else is inside the critical section if somebody can go on. -/
lemma IsAble.inside (h : s.IsAble a r) (b : Agent) (hb : s.system.inside = some b) : b = a := by
  rcases h with hinside | ⟨hfree, -⟩
  · exact Option.some_inj.mp (hb.symm.trans hinside)
  · cases hb.symm.trans hfree

/-- A session goes on by a small step of somebody who can. -/
def Progresses (s s' : Session) : Prop :=
  ∃ a r, s.runners.get? a = some r ∧ s.IsAble a r ∧ s' = s.act a r

/-- Whoever can go on goes on. -/
lemma Progresses.goes (h : Progresses s s') : Goes s s' := by
  obtain ⟨a, r, hrunner, hable, hact⟩ := h
  exact ⟨a, r, hrunner, hable.inside, hact⟩

/-- One session comes from another by small steps. -/
abbrev Runs : Session → Session → Prop := ReflTransGen Goes

/-- The system of a session goes on by moves. -/
lemma Runs.path (h : Runs s s') : System.Path s.system s'.system := by
  induction h with
  | refl => exact .refl
  | tail _ hgoes ih =>
    obtain ⟨a, r, -, -, rfl⟩ := hgoes
    exact ih.trans path_act

/-- No agent has two runners. -/
def Tidy (s : Session) : Prop := s.runners.keys.Nodup

namespace Tidy

/-- A runner that changes does not get a double. -/
lemma modifyRunner (h : s.Tidy) (f : Runner → Runner) : (s.modifyRunner a f).Tidy := by
  rw [Tidy, Session.modifyRunner, Table.keys_modify]
  exact h

/-- A new runner takes the place of an older one. -/
lemma adoptSince (h : s.Tidy) (before : Nat) : (s.adoptSince before).Tidy := by
  unfold Session.adoptSince
  split
  · exact h
  · split
    · exact Table.nodup_keys_set h _ _
    · exact h

/-- A reply changes or removes one runner. -/
lemma takeReply (h : s.Tidy) (op : Operation) (reply : Reply) : (s.takeReply a op reply).Tidy := by
  unfold Session.takeReply
  split
  · exact Table.nodup_keys_filter h _
  · split
    · exact h
    · split
      · exact h.modifyRunner _
      · exact h.modifyRunner (s := s.giveAnswer _ _ _) _

/-- A move changes or removes one runner, and may bring a new one. -/
lemma perform (h : s.Tidy) : (s.perform a m).Tidy := by
  unfold Session.perform
  split
  · split
    · exact Table.nodup_keys_filter h _
    · exact h.modifyRunner (s := s.giveAnswer _ _ _) _
  · next sys _ =>
    have hadopted := Tidy.adoptSince (s := { s with system := sys }) h s.system.state.scheduled
    dsimp only
    split
    · exact hadopted.takeReply _ _
    · exact hadopted

/-- A move that no runner makes changes none. -/
lemma move (h : s.Tidy) : (s.move m).Tidy := by
  unfold Session.move
  split <;> exact h

/-- A command that begins changes one runner. -/
lemma beginCommand (h : s.Tidy) (ticket : Nat) (cmd : Command) :
    (s.beginCommand a ticket cmd).Tidy := by
  unfold Session.beginCommand
  dsimp only
  split
  · split
    · exact h.modifyRunner _
    · cases cmd with
      | finish e => exact h.modifyRunner (s := s.giveAnswer _ _ _) _
      | _ => exact h
  · exact h

/-- The end of a body changes one runner. -/
lemma endBody (h : s.Tidy) (t : ThreadId) (e : Ending) : (s.endBody t r e).Tidy := by
  have hended := h.modifyRunner (a := .unit t) fun r => { r with ending := none }
  unfold Session.endBody
  dsimp only
  split <;> split <;> exact hended

/-- Whatever a runner does, no agent gets a second one. -/
theorem act (h : s.Tidy) : (s.act a r).Tidy := by
  unfold Session.act
  split
  · exact h.perform
  split
  · exact h.perform
  split
  · split
    · exact (h.modifyRunner _).perform
    · exact h.modifyRunner (s := s.giveAnswer _ _ _) _
  · split
    · exact (h.modifyRunner _).beginCommand _ _
    · split
      · exact (h.endBody _ _).perform
      · exact h

/-- Along a run no agent gets a second runner. -/
lemma runs (h : s.Tidy) (hruns : Runs s s') : s'.Tidy := by
  induction hruns with
  | refl => exact h
  | tail _ hgoes ih =>
    obtain ⟨a, r, -, -, rfl⟩ := hgoes
    exact ih.act

end Tidy

/-- Whoever goes on next can do so. -/
lemma progresses_of_next? (h : s.Tidy) (hnext : s.next? = some (a, r)) :
    Progresses s (s.act a r) := by
  unfold next? at hnext
  split at hnext
  · next b hinside =>
    obtain ⟨r', hr', heq⟩ := Option.map_eq_some_iff.mp hnext
    cases heq
    exact ⟨a, r, hr', .inl hinside, rfl⟩
  · next hinside =>
    exact ⟨a, r, Table.get?_eq_some_of_mem h (List.mem_of_find?_eq_some hnext),
      .inr ⟨hinside, by simpa using List.find?_some hnext⟩, rfl⟩

/-- A session that is let go on until nobody can makes one of its runs, to the end. -/
theorem runs_of_settleWithin {fuel : Nat} (htidy : s.Tidy) (h : s.settleWithin fuel = some s') :
    Runs s s' ∧ s'.next? = none := by
  induction fuel generalizing s with
  | zero => cases h
  | succ fuel ih =>
    unfold settleWithin at h
    split at h
    · next hnext =>
      cases h
      exact ⟨.refl, hnext⟩
    · next a r hnext =>
      obtain ⟨hruns, hlast⟩ := ih htidy.act h
      exact ⟨hruns.head (progresses_of_next? htidy hnext).goes, hlast⟩

/-! ### Reachable systems -/

/-- A session that is let go on makes moves, with whatever runners. -/
lemma path_of_settleWithin {fuel : Nat} (h : s.settleWithin fuel = some s') :
    System.Path s.system s'.system := by
  induction fuel generalizing s with
  | zero => cases h
  | succ fuel ih =>
    unfold settleWithin at h
    split at h
    · cases h
      exact .refl
    · exact path_act.trans (ih h)

/-- The same goes for as many steps as a session is granted. -/
lemma path_of_settle? (h : s.settle? = some s') : System.Path s.system s'.system :=
  path_of_settleWithin h

/-- Locks are created one after the other. -/
lemma path_createLocks (ls : List Nat) :
    System.Path s.system (ls.foldl (fun s _ => s.move .newLock) s).system := by
  induction ls generalizing s with
  | nil => exact .refl
  | cons l ls ih => exact (system_move ▸ path_getD ..).trans ih

/-- A session that nobody used yet has a system that can be reached. -/
lemma reachable_of_start {barred : Option (List ThreadId)} {locks : Nat} {scripts : List Script}
    (h : start c barred locks scripts = .ok s) : System.Reachable c s.system := by
  unfold start at h
  cases hinitial : System.initial c with
  | error e => rw [hinitial] at h; cases h
  | ok sys =>
    rw [hinitial] at h
    cases h
    exact ⟨sys, hinitial, path_createLocks (s := { system := sys, barred, scripts }) _⟩

/-- At the start nobody has a runner. -/
lemma tidy_of_start {barred : Option (List ThreadId)} {locks : Nat} {scripts : List Script}
    (h : start c barred locks scripts = .ok s) : s.Tidy := by
  have hlocks : ∀ (ls : List Nat) {s : Session}, s.Tidy →
      (ls.foldl (fun s _ => s.move .newLock) s).Tidy := by
    intro ls
    induction ls with
    | nil => exact id
    | cons l ls ih => exact fun hs => ih hs.move
  unfold start at h
  cases hinitial : System.initial c with
  | error e => rw [hinitial] at h; cases h
  | ok sys =>
    rw [hinitial] at h
    cases h
    exact hlocks _ List.nodup_nil

/-- A step of a scenario starts with at most one move. -/
lemma path_startStep (i : Nat) (st : RoundScheduler.Step) :
    System.Path s.system (s.startStep i st).1.system := by
  cases st with
  | submit w | fill w | setEligible t b | dump | grants l | unknown => exact .refl
  | tell t cmd =>
    unfold startStep
    dsimp only
    split <;> exact .refl
  | newLock => exact system_move ▸ path_getD ..
  | dropLock l =>
    unfold startStep
    dsimp only
    split
    · exact .refl
    · split
      · exact .refl
      · exact system_move ▸ path_getD ..
  | unqueue l t =>
    unfold startStep
    dsimp only
    split
    · exact .refl
    · exact system_move ▸ path_getD ..
  | query =>
    unfold startStep
    dsimp only
    split <;> exact .refl

/-- What a step of a scenario shows is the system after some moves. -/
lemma path_of_step {verbosity i : Nat} {st : RoundScheduler.Step} {o : Observation}
    (h : s.step verbosity i st = some (s', o)) : System.Path s.system s'.system ∧
      o.locks = s'.system.state.locks.entries ∧ o.report = s'.system.state.fullReport := by
  obtain ⟨after, hafter, h⟩ := Option.bind_eq_some_iff.mp h
  cases h
  exact ⟨(path_startStep i st).trans (path_of_settle? hafter), rfl, rfl⟩

/-- What the steps of a scenario show are systems that can be reached, if the first one can. -/
lemma reachable_of_steps (hreach : System.Reachable c s.system) {verbosity i : Nat}
    {sts : List RoundScheduler.Step} {os : List Observation}
    (h : s.steps verbosity i sts = some os) : ∀ o ∈ os, ∃ sys, System.Reachable c sys ∧
      o.locks = sys.state.locks.entries ∧ o.report = sys.state.fullReport := by
  induction sts generalizing s i os with
  | nil =>
    cases h
    exact nofun
  | cons st sts ih =>
    obtain ⟨⟨next, o⟩, hstep, h⟩ := Option.bind_eq_some_iff.mp h
    obtain ⟨rest, hrest, h⟩ := Option.bind_eq_some_iff.mp h
    cases h
    obtain ⟨hpath, hshown⟩ := path_of_step hstep
    have hnext := hreach.path hpath
    intro o' ho'
    rcases List.mem_cons.mp ho' with rfl | ho'
    · exact ⟨_, hnext, hshown⟩
    · exact ih hnext hrest o' ho'

end Session

/-- A scenario shows systems that can be reached from its configuration. -/
theorem Scenario.reachable_of_observe {sc : Scenario} {os : List Observation}
    (h : sc.observe = .ok os) : ∀ o ∈ os, ∃ sys, System.Reachable sc.config sys ∧
      o.locks = sys.state.locks.entries ∧ o.report = sys.state.fullReport := by
  unfold observe at h
  split at h
  · cases h
  · next s hstart =>
    split at h
    · next os' hsteps =>
      cases h
      exact Session.reachable_of_steps (Session.reachable_of_start hstart) hsteps
    · cases h

namespace Batch

/-- The opened gate leaves the system alone. -/
lemma system_openGate (b : Batch) (s : Session) : (b.openGate s).system = s.system := by
  unfold openGate
  generalize s.system.state.threadList.zip b.scripts = units
  induction units generalizing s with
  | nil => rfl
  | cons u units ih => exact ih _

/-- What a batch comes to is a system that can be reached from its configuration. -/
theorem reachable_of_run {b : Batch} {out : BatchOutcome} (h : b.run = .ok out) :
    ∃ sys, System.Reachable b.config sys ∧ out.locks = sys.state.locks.entries ∧
      out.report = sys.state.fullReport ∧ out.schedule = sys.schedule?.map (·.comparable) := by
  unfold run at h
  split at h
  · cases h
  · next s hstart =>
    split at h
    · cases h
    · next last hlast =>
      obtain ⟨gathered, hgathered, hlast⟩ := Option.bind_eq_some_iff.mp hlast
      cases h
      have hpath : System.Path s.system gathered.system :=
        Session.path_of_settle? (s := s.addClient 0 b.submissions) hgathered
      have hopened := Session.path_of_settle? hlast
      rw [system_openGate] at hopened
      exact ⟨_, (Session.reachable_of_start hstart).path (hpath.trans hopened), rfl, rfl, rfl⟩

end Batch

namespace Workload

/-- A workload is launched by creating its lock. -/
lemma system_launch (w : Workload) (s : Session) (client units : Nat) :
    (w.launch s client units).system = (s.move .newLock).system := by
  unfold launch
  dsimp only
  split <;> rfl

/-- Nobody gets two runners by the launch of a workload. -/
lemma tidy_launch (w : Workload) {s : Session} (h : s.Tidy) (client units : Nat) :
    (w.launch s client units).Tidy := by
  unfold launch
  dsimp only
  split
  · exact h.move
  · exact Table.nodup_keys_set (Session.Tidy.move h) _ _

/-- A workload that ran until nobody can go on made one of its runs. -/
lemma runs_of_run {w : Workload} {s s' : Session} {client primaries n : Nat} (htidy : s.Tidy)
    (hn : w.paddedUnits primaries = .ok n) (h : w.run s client primaries = .ok (some s')) :
    Session.Runs (w.launch s client n) s' ∧ s'.next? = none := by
  rw [run, hn] at h
  exact Session.runs_of_settleWithin (w.tidy_launch htidy client n) (Except.ok.inj h)

/-- A workload that ran to its end made moves. -/
lemma path_of_run {w : Workload} {s s' : Session} {client primaries : Nat}
    (h : w.run s client primaries = .ok (some s')) : System.Path s.system s'.system := by
  unfold run at h
  cases hunits : w.paddedUnits primaries with
  | error o => rw [hunits] at h; cases h
  | ok units =>
    rw [hunits] at h
    have hpath := Session.path_of_settle? (Except.ok.inj h)
    rw [system_launch, Session.system_move] at hpath
    exact (Session.path_getD ..).trans hpath

end Workload

namespace CommandLine

/-- A workload that came to an end leaves a system that can be reached, and its journal. -/
lemma path_of_runWorkload {s s' : Session} {w : Workload} {primaries : Nat} {j : Journal}
    (h : runWorkload s w primaries = (.ok s', j)) :
    System.Path s.system s'.system ∧ j = s'.system.state.journal := by
  unfold runWorkload at h
  split at h
  · cases h
  · cases h
  · next last hrun =>
    split at h
    · cases h
      exact ⟨Workload.path_of_run hrun, rfl⟩
    · cases h

/-- A unit that staged other primaries leaves a system that can be reached. -/
lemma path_of_reconfigure {s s' : Session} {configured primaries : Nat} {j : Journal}
    (h : reconfigure s configured primaries = (.ok s', j)) :
    System.Path s.system s'.system := by
  unfold reconfigure at h
  dsimp only at h
  split at h
  · cases h
  · next last hlast =>
    have hpath := Session.path_of_settle? hlast
    split at h <;> cases h
    exact hpath

/-- A session for a command line has a system that nobody used yet. -/
lemma reachable_of_freshSession {c : Config} {context : List String} {s : Session}
    (h : freshSession c context = .ok s) : System.Reachable c s.system := by
  unfold freshSession at h
  split at h
  · next s' hstart =>
    cases h
    exact Session.reachable_of_start hstart
  all_goals cases h

/-- The journal from which a `trace` prints its schedule is that of a system that can be reached,
and that records. -/
theorem TraceOptions.reachable_of_run {o : TraceOptions} {s : Session} {j : Journal}
    (h : o.run = (.ok s, j)) :
    System.Reachable { o.config with recordSchedule := true } s.system ∧
      j = s.system.state.journal := by
  unfold TraceOptions.run at h
  split at h
  · cases h
  · next first hfirst =>
    have hreach := reachable_of_freshSession hfirst
    dsimp only at h
    split at h
    · obtain ⟨hpath, hjournal⟩ := path_of_runWorkload h
      exact ⟨hreach.path hpath, hjournal⟩
    · split at h
      · cases h
      · next staged _ hstaged =>
        obtain ⟨hpath, hjournal⟩ := path_of_runWorkload h
        exact ⟨hreach.path ((path_of_reconfigure hstaged).trans hpath), hjournal⟩

end CommandLine

end RoundScheduler
