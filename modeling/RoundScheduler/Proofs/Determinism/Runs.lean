import RoundScheduler.Proofs.Determinism.Diamond
import RoundScheduler.Proofs.Determinism.Following

/-!
# The course of a run

Besides the stretches of threads there are their calls and the places of the client. A call is
noticed at once if it needs no step, and the client is noticed when it lists a thread. Together the
course follows every move that an agenda permits, so every system that can be reached by following
an agenda has a course that comes from the course of its start.
-/

namespace RoundScheduler

open State

/-- A routine asks for steps and for the release of locks, and ends with a retirement. -/
lemma Routine.operation_cases (r : Routine) :
    (∃ p : Purpose, r.operation = p.operation) ∨ (∃ l, r.operation = .unlock l) ∨
      r.operation = .retire := by
  cases r with
  | nil => exact .inr (.inr rfl)
  | cons i rest =>
    obtain ⟨order, required⟩ := i
    cases order with
    | step p => exact .inl ⟨p, rfl⟩
    | unlock l => exact .inr (.inl ⟨l, rfl⟩)

/-- No unit submits. -/
lemma Routine.submits_operation (r : Routine) : r.operation.submits = false := by
  rcases r.operation_cases with ⟨p, hp⟩ | ⟨l, hl⟩ | hretire
  · rw [hp]
    cases p <;> rfl
  · rw [hl]
    rfl
  · rw [hretire]
    rfl

/-- A client has no place of a thread. -/
lemma Submitting.phase? {n : Nat} {next : ThreadId} {call? : Option Call}
    (h : Submitting n next call?) : (call?.bind fun call => call.point.phase?) = none := by
  cases h <;> rfl

/-! ### The start of an agenda -/

namespace Agenda

variable {w : Agenda} {sys : System}

/-- The start of an agenda is reached from the beginning by whatever creating a lock keeps. -/
lemma start?_induction {motive : System → Prop} (h : w.start? = some sys)
    (initial : ∀ first, System.initial w.config = .ok first → motive first)
    (newLock : ∀ sys, motive sys → motive { sys with state := sys.state.registerLock }) :
    motive sys := by
  obtain ⟨first, hfirst, hlocks⟩ := Option.bind_eq_some_iff.mp h
  have hinitial : System.initial w.config = .ok first := by
    cases hi : System.initial w.config with
    | error e => simp [hi, Except.toOption] at hfirst
    | ok s => simpa [hi, Except.toOption] using hfirst
  replace initial := initial first hinitial
  clear h hinitial hfirst
  -- The locks are created one after the other.
  generalize w.locks = locks at hlocks
  induction locks generalizing first with
  | zero =>
    cases hlocks
    exact initial
  | succ n ih =>
    obtain ⟨next, hm, hlocks⟩ := Option.bind_eq_some_iff.mp hlocks
    obtain ⟨-, rfl⟩ := System.move?_newLock_eq_some_iff.mp hm
    exact ih _ (newLock first initial) hlocks

/-- A system of which nobody made use yet. -/
structure Untouched (sys : System) : Prop where
  calls : ∀ a, sys.calls.get? a = none
  inside : sys.inside = none
  returns : sys.returns = []
  round : sys.state.round = 0
  records : ∀ t, sys.state.record? t = none
  nextThread : sys.state.nextThread = ⟨0⟩
  journal : sys.state.journal = []
  free : ∀ l k, sys.state.lock? l = some k → k = {}
  staged : sys.state.staged = sys.state.live

/-- A system that was just made for an agenda is untouched. -/
lemma untouched_of_start (h : w.start? = some sys) : Untouched sys := by
  refine start?_induction h (fun first hfirst => ?_) fun sys h => ?_
  · obtain ⟨rounds, -, rfl⟩ := Invariant.exists_rounds_of_initial hfirst
    refine ⟨fun _ => rfl, rfl, rfl, rfl, fun _ => rfl, rfl, rfl, fun l k hk => ?_, rfl⟩
    cases hk
  · refine ⟨h.calls, h.inside, h.returns, h.round, h.records, h.nextThread, h.journal,
      fun l k hk => ?_, h.staged⟩
    rw [lock?_registerLock] at hk
    split at hk
    · exact (Option.some_inj.mp hk).symm
    · exact h.free l k hk

end Agenda

namespace Shadow

variable {w : Agenda} {sys sys' : System} {c c' : Course} {t u : ThreadId} {op : Operation}
  {o : Outcome} {ph : Phase} {s' : State} {n : Nat}

/-! ### Calls of threads -/

/-- A unit that is in no operation fills no round. -/
lemma fill?_of_idle (hidle : sys.calls.get? (.unit t) = none) : sys.fill? (.unit t) = none := by
  rw [System.fill?, System.phase?, hidle]
  rfl

/-- A unit that is in no operation was handed no lock. -/
lemma hands_of_idle (hidle : sys.calls.get? (.unit t) = none) :
    c.hands t (sys.phase? (.unit t)) = false := by
  rw [System.phase?, hidle]
  rfl

/-- A thread outside of all operations can go on with its routine. -/
lemma active_of_idle (h : Shadow w sys c) (hinv : Invariant sys)
    (hidle : sys.calls.get? (.unit t) = none) (halive : sys.state.isAlive t = true) :
    c.Active t :=
  h.active hinv halive ((hidle ▸ hinv.placed (.unit t)).poised.not_linked rfl)

/-- A thread begins an operation that needs the critical section again. -/
lemma begins (h : Shadow w sys c) (hinv : Invariant sys) (hs : c.Sound w.routine)
    (hidle : sys.calls.get? (.unit t) = none) (halive : sys.state.isAlive t = true)
    (hop : op = (w.todo t sys.returns).operation) (hsubmits : op.submits = false)
    (hawaited : ph.awaited? = none) (hph : ph.fill? = none) :
    Shadow w (sys.apply (.unit t) op (.goto sys.state (.thread t ph))) c := by
  have hphase : (sys.apply (.unit t) op (.goto sys.state (.thread t ph))).phase? (.unit t) =
      some ph := by
    rw [System.phase?, System.get?_calls_apply, if_pos rfl]
    rfl
  refine h.apply_unit (v := none) hinv hs .stay
    (hs.numbered t (h.active_of_idle hinv hidle halive).listed) hsubmits h.mirrors rfl
    (h.filling_keep rfl (fill?_of_idle hidle) ?_) (fun _ _ => .inl ⟨rfl, fun _ => .rfl⟩)
    fun hkeeps => ⟨fun call hcall => ?_, ?_⟩
  · rw [System.fill?, hphase]
    exact hph
  · rw [System.get?_calls_apply, if_pos rfl] at hcall
    cases hcall
    exact hop
  · have htodo := hkeeps.todo
    rw [hands_of_idle hidle] at htodo
    rw [hphase, hands_of_awaited? hawaited]
    exact htodo

/-- The course follows the call of a thread. -/
theorem call (h : Shadow w sys c) (hinv : Invariant sys) (hs : c.Sound w.routine)
    (hidle : sys.calls.get? (.unit t) = none) (halive : sys.state.isAlive t = true)
    (hnext : w.next? sys (.unit t) = some op) (ho : Opening sys.state (.unit t) op o) :
    ∃ c', c.Follows w.eligible c' ∧ Shadow w (sys.apply (.unit t) op o) c' := by
  have hop : op = (w.todo t sys.returns).operation := (Option.some_inj.mp hnext).symm
  have hchange : Change sys.state none (o.state sys.state) := ho.change
  have hactive := h.active_of_idle hinv hidle halive
  have hasks : ∀ order : Order, op = order.operation → c.desk.next? t = some order :=
    fun order horder => next?_of_operation (h.keeps t halive) (hop.symm.trans horder)
      (hands_of_idle hidle)
  have hroutine := Routine.operation_cases (w.todo t sys.returns)
  rw [← hop] at hroutine
  cases ho with
  | submit | fill | owner | unlinked | forgotten =>
    rcases hroutine with ⟨p, hp⟩ | ⟨l, hl⟩ | hretire
    · cases p <;> cases hp
    · cases hl
    · cases hretire
  | turn | lock | reconfigure | retire =>
    exact ⟨c, .inl rfl, h.begins hinv hs hidle halive hop rfl rfl rfl⟩
  | relock _ l k hk howner =>
    have he : c.Does t (.pass .failed) := .failed (.lock l) l hactive
      (hasks (.step (.lock l)) rfl) rfl ((h.mirrors.owner l k hk).trans howner)
    refine ⟨_, .inr ⟨_, .act t _ he⟩, h.reply_of_does hinv hs hchange rfl (fill?_of_idle hidle)
      (hands_of_idle hidle) he (h.mirrors.pass t .failed) ?_⟩
    simp [Course.act, Desk.pass, Reply.verdict]
  | notOwner _ l k hk howner =>
    have he : c.Does t (.pass .refused) := .refused l hactive (hasks (.unlock l) rfl)
      (by rw [h.mirrors.owner l k hk]; exact howner)
    refine ⟨_, .inr ⟨_, .act t _ he⟩, h.reply_of_does hinv hs hchange rfl (fill?_of_idle hidle)
      (hands_of_idle hidle) he (h.mirrors.pass t .refused) ?_⟩
    simp [Course.act, Desk.pass, Reply.verdict]
  | released _ l k hk howner hqueue =>
    have he : c.Does t (.give l) := .give l hactive (hasks (.unlock l) rfl)
      ((h.mirrors.owner l k hk).trans howner)
    have hgive := Desk.give_of_nil (t := t) ((h.mirrors.queue l k hk).trans hqueue)
    refine ⟨_, .inr ⟨_, .act t _ he⟩, h.reply_of_does hinv hs hchange rfl (fill?_of_idle hidle)
      (hands_of_idle hidle) he ?_ ?_⟩
    · simp only [Course.act, hgive]
      exact h.mirrors.release t l
    · simp [Course.act, hgive, Desk.release, Desk.pass, Reply.verdict]
  | handedOver _ l k next rest hk howner hqueue =>
    have he : c.Does t (.give l) := .give l hactive (hasks (.unlock l) rfl)
      ((h.mirrors.owner l k hk).trans howner)
    have hqueue' := (h.mirrors.queue l k hk).trans hqueue
    have hne : t ≠ next := (hs.desk.ne_of_head hqueue' hactive.unlinked).symm
    have hgive := Desk.give_of_cons (t := t) hqueue'
    refine ⟨_, .inr ⟨_, .act t _ he⟩, h.reply_of_does hinv hs hchange rfl (fill?_of_idle hidle)
      (hands_of_idle hidle) he ?_ ?_⟩
    · simp only [Course.act, hgive]
      exact h.mirrors.handOver hinv.sound.queues hk hqueue t
    · simp [Course.act, hgive, Desk.handOver, Desk.acquire, Desk.pass, hne, Reply.verdict]

/-! ### The client -/

/-- The client fills no rounds. -/
lemma fill?_apply_client (h : Shadow w sys c) {next : ThreadId}
    (hclient : Submitting n next (o.call? (sys.calls.get? (.client 0)) op)) (a : Agent) :
    (sys.apply (.client 0) op o).fill? a = sys.fill? a := by
  rw [System.fill?_apply rfl]
  split
  · next ha =>
    rw [hclient.phase?, ha, System.fill?, System.phase?, h.client.phase?]
  · rfl

/-- What the client does is followed if the threads keep up. -/
lemma apply_client (h : Shadow w sys c) (hmirrors : c'.Mirrors (o.state sys.state))
    (hfilling : c'.filling = c.filling) (hle : c.listed ≤ c'.listed)
    (hkeeps : ∀ t, (o.state sys.state).isAlive t = true →
      w.Keeps (sys.apply (.client 0) op o) c' t)
    (hcount : Agenda.submissions (o.returns (.client 0) op ++ sys.returns) = n)
    (hlisted : c'.listed = if sys.config.namesWorkers then n else 0)
    (hclient : Submitting n (o.state sys.state).nextThread
      (o.call? (sys.calls.get? (.client 0)) op)) :
    Shadow w (sys.apply (.client 0) op o) c' where
  mirrors := by
    rw [System.state_apply]
    exact hmirrors
  filling f := by
    simp only [hfilling, h.fill?_apply_client hclient]
    exact h.filling f
  keeps t ht := by
    rw [System.state_apply] at ht
    exact hkeeps t ht
  listed := by
    rw [System.config_apply, System.returns_apply, hcount]
    exact hlisted
  units t call hcall := by
    rw [System.get?_calls_apply, if_neg nofun] at hcall
    obtain ⟨hlt, hsubmits⟩ := h.units t call hcall
    exact ⟨Nat.lt_of_lt_of_le hlt hle, hsubmits⟩
  client := by
    rw [System.returns_apply, hcount, System.state_apply, System.get?_calls_apply, if_pos rfl]
    exact hclient
  clients n := by
    rw [System.get?_calls_apply, if_neg (by simp)]
    exact h.clients n

/-- Threads that the client does not name keep up with it. -/
lemma keeps_apply_client (h : w.Keeps sys c t) (htodo : c'.desk = c.desk)
    (hunit : ∀ r ∈ o.returns (.client 0) op, r.unit? t = none) :
    w.Keeps (sys.apply (.client 0) op o) c' t := by
  refine keeps_of_same h ?_ ?_ (by rw [htodo]) fun l => by rw [htodo]
  · rw [System.get?_calls_apply, if_neg nofun]
  · rw [System.returns_apply]
    exact todo_append_of_ne (by simp) hunit _

/-- What the client does without listing a thread is not noticed. -/
lemma client_stays (h : Shadow w sys c) (hmirrors : c.Mirrors (o.state sys.state))
    (halive : ∀ t, (o.state sys.state).isAlive t = true → sys.state.isAlive t = true)
    (hunit : ∀ t, ∀ r ∈ o.returns (.client 0) op, r.unit? t = none)
    (hcount : Agenda.submissions (o.returns (.client 0) op ++ sys.returns) = n)
    (hlisted : c.listed = if sys.config.namesWorkers then n else 0)
    (hclient : Submitting n (o.state sys.state).nextThread
      (o.call? (sys.calls.get? (.client 0)) op)) :
    Shadow w (sys.apply (.client 0) op o) c :=
  h.apply_client hmirrors rfl (Nat.le_refl _)
    (fun t ht => keeps_apply_client (h.keeps t (halive t ht)) rfl (hunit t)) hcount hlisted
    hclient

/-- While the client goes on in its submission nothing is noticed. -/
lemma client_goto (h : Shadow w sys c) (hmirrors : c.Mirrors s')
    (halive : ∀ t, s'.isAlive t = true → sys.state.isAlive t = true)
    (hn : Agenda.submissions sys.returns = n)
    (hlisted : c.listed = if sys.config.namesWorkers then n else 0) {point : Point}
    (hclient : Submitting n s'.nextThread (some ⟨op, point⟩)) :
    Shadow w (sys.apply (.client 0) op (.goto s' point)) c := by
  have hcount : Agenda.submissions (Outcome.returns (.client 0) op (.goto s' point) ++
      sys.returns) = n := by
    simpa [Outcome.returns] using hn
  exact h.client_stays hmirrors halive (by simp [Outcome.returns]) hcount hlisted hclient

/-- A new thread is not alive before it is started. -/
lemma alive_of_enrol (ht : sys.state.enrol.isAlive t = true) : sys.state.isAlive t = true := by
  rw [isAlive, record?_enrol] at ht
  split at ht
  · simp at ht
  · exact ht

/-- The client lists the thread of the next unit. -/
lemma client_lists (h : Shadow w sys c) (hs : c.Sound w.routine)
    (hnames : sys.config.namesWorkers = true) (hn : Agenda.submissions sys.returns = n)
    (hnext : sys.state.nextThread.raw = n + 1) :
    Shadow w (sys.apply (.client 0) (.submit (.scripted n))
      (.reply (sys.state.list ⟨n⟩ (.scripted n)) (.thread ⟨n⟩))) c.list := by
  have hlisted : c.listed = n := by rw [h.listed, if_pos hnames, hn]
  have hcount : Agenda.submissions (Outcome.returns (.client 0) (.submit (.scripted n))
      (.reply (sys.state.list ⟨n⟩ (.scripted n)) (.thread ⟨n⟩)) ++ sys.returns) = n + 1 := by
    simp [Outcome.returns, Agenda.submissions, ← hn]
  refine h.apply_client (hlisted ▸ h.mirrors.list (.scripted n)) rfl (Nat.le_succ _)
    (fun t ht => ?_) hcount ?_ (.outside hnext)
  · by_cases htn : t = ⟨n⟩
    · -- The thread is new, so nobody has called anything as it.
      subst htn
      have hidle : sys.calls.get? (.unit ⟨n⟩) = none := by
        refine Option.eq_none_iff_forall_ne_some.mpr fun call hcall => ?_
        exact absurd (h.units _ call hcall).1 (hlisted ▸ Nat.lt_irrefl n)
      have hidle' : (sys.apply (.client 0) (.submit (.scripted n))
          (.reply (sys.state.list ⟨n⟩ (.scripted n)) (.thread ⟨n⟩))).calls.get? (.unit ⟨n⟩) =
          none := by
        rw [System.get?_calls_apply, if_neg (by simp), hidle]
      refine ⟨fun call hcall => ?_, ?_⟩
      · rw [hidle'] at hcall
        cases hcall
      · rw [hands_of_idle hidle', System.returns_apply]
        simpa [Course.list, Outcome.returns, Agenda.todo, Return.unit?] using
          hs.fresh ⟨n⟩ (Nat.le_of_eq hlisted)
    · refine keeps_apply_client (h.keeps t ?_) rfl fun r hr => ?_
      · rw [isAlive, Outcome.state, record?_list] at ht
        simpa [isAlive, htn] using ht
      · cases List.mem_singleton.mp hr
        simp [Return.unit?, Ne.symm htn]
  · rw [if_pos hnames]
    exact congrArg (· + 1) hlisted

/-- The course follows what the client does. -/
theorem intake (h : Shadow w sys c) (hinv : Invariant sys) (hs : c.Sound w.routine) {a : Agent}
    {p : Submission} (hcall : sys.calls.get? a = some ⟨op, .submission p⟩)
    (ho : Intake sys.config sys.state p o) :
    ∃ c', c.Follows w.eligible c' ∧ Shadow w (sys.apply a op o) c' := by
  obtain rfl : a = .client 0 := by
    cases a with
    | unit t =>
      have hsubmits := (hcall ▸ hinv.placed (.unit t)).of_submission.1
      exact absurd ((h.units t _ hcall).2.symm.trans hsubmits) nofun
    | client n =>
      cases n with
      | zero => rfl
      | succ n => exact absurd ((h.clients n).symm.trans hcall) nofun
  obtain ⟨n, hn⟩ : ∃ n, Agenda.submissions sys.returns = n := ⟨_, rfl⟩
  obtain ⟨next, hnext⟩ : ∃ next, sys.state.nextThread = next := ⟨_, rfl⟩
  have hlisted := h.listed
  have hclient := h.client
  rw [hn] at hlisted
  rw [hn, hnext, hcall] at hclient
  cases hclient with
  | enrol hraw =>
    obtain rfl : next = ⟨n⟩ := by rw [← hraw]
    have hafter : sys.state.enrol.nextThread.raw = n + 1 := by
      rw [enrol, hnext]
      rfl
    cases ho with
    | blocked _ _ hfull =>
      rw [hnext]
      exact ⟨c, .inl rfl, h.client_goto ((h.mirrors.enrol hinv.sound.roster).awaitAdmission _)
        (fun t => alive_of_enrol) hn hlisted (.wait hafter)⟩
    | passed _ _ hfull =>
      rw [hnext]
      exact ⟨c, .inl rfl, h.client_goto (h.mirrors.enrol hinv.sound.roster)
        (fun t => alive_of_enrol) hn hlisted (.list hafter)⟩
  | wait hraw =>
    cases ho with
    | sleepForAdmission => exact ⟨c, .inl rfl, h.inside none⟩
    | admitted _ _ _ r hr hadmitted =>
      exact ⟨c, .inl rfl, h.client_goto h.mirrors (fun _ => id) hn hlisted
        (.list ((congrArg ThreadId.raw hnext).trans hraw))⟩
  | list hraw =>
    have hraw' : sys.state.nextThread.raw = n + 1 := (congrArg ThreadId.raw hnext).trans hraw
    cases ho with
    | listed _ _ hnames => exact ⟨_, .inr ⟨.list, .list⟩, h.client_lists hs hnames hn hraw'⟩
    | unnamed _ _ _ hnames =>
      refine ⟨c, .inl rfl, h.client_stays h.mirrors (fun _ => id) (fun t r hr => ?_)
        (by simp [Outcome.returns, Agenda.submissions, ← hn]) ?_ (.outside hraw')⟩
      · cases List.mem_singleton.mp hr
        rfl
      · simpa [hnames] using hlisted

/-- The course follows the call of the client. -/
lemma client_calls (h : Shadow w sys c) (hidle : sys.calls.get? (.client 0) = none)
    (hnext : w.next? sys (.client 0) = some op) (ho : Opening sys.state (.client 0) op o) :
    Shadow w (sys.apply (.client 0) op o) c := by
  obtain ⟨-, hop⟩ := Option.ite_none_right_eq_some.mp hnext
  obtain ⟨n, hn⟩ : ∃ n, Agenda.submissions sys.returns = n := ⟨_, rfl⟩
  have hlisted := h.listed
  have hclient := h.client
  rw [hn] at hlisted hop
  rw [hn, hidle] at hclient
  cases hclient with
  | outside hraw =>
    cases ho with
    | submit =>
      cases hop
      exact h.client_goto h.mirrors (fun _ => id) hn hlisted (.enrol hraw)
    | _ => cases hop

/-! ### Whole runs -/

/-- The course follows every move that the agenda permits. -/
theorem step (h : Shadow w sys c) (hinv : Invariant sys) (hs : c.Sound w.routine)
    (hstep : w.Step sys sys') : ∃ c', c.Follows w.eligible c' ∧ Shadow w sys' c' := by
  obtain ⟨m, hpermits, hm⟩ := hstep
  cases hinv.transition hm with
  | call a op o hinside hidle halive hlocks ho =>
    have hnext : w.next? sys a = some op := by simpa [Agenda.permits] using hpermits
    cases a with
    | unit t => exact h.call hinv hs hidle halive hnext ho
    | client n =>
      cases n with
      | zero => exact ⟨c, .inl rfl, h.client_calls hidle hnext ho⟩
      | succ n => cases hnext
  | stretch t op ph o hinside hcall hop ho => exact h.stretch hinv hs hinside hcall hop ho
  | intake a op p o hinside hcall ho => exact h.intake hinv hs hcall ho
  | enter a call hinside hcall => exact ⟨c, .inl rfl, h.inside (some a)⟩
  | newLock hinside => cases hpermits
  | dropLock l hinside hl hunused => cases hpermits

/-- A new lock is free, as all locks are in a course without owners. -/
lemma newLock (h : Shadow w sys c) (howner : ∀ l, c.desk.owner l = none)
    (hqueue : ∀ l, c.desk.queue l = []) :
    Shadow w { sys with state := sys.state.registerLock } c := by
  have hnew : ∀ {l k}, sys.state.registerLock.lock? l = some k →
      k = {} ∨ sys.state.lock? l = some k := by
    intro l k hk
    rw [lock?_registerLock] at hk
    split at hk
    · exact .inl (Option.some_inj.mp hk).symm
    · exact .inr hk
  have hmirrors : c.Mirrors sys.state.registerLock :=
    { h.mirrors with
      owner := fun l k hk => by
        rcases hnew hk with rfl | hk
        · exact howner l
        · exact h.mirrors.owner l k hk
      queue := fun l k hk => by
        rcases hnew hk with rfl | hk
        · exact hqueue l
        · exact h.mirrors.queue l k hk }
  exact ⟨hmirrors, h.filling, fun t ht => ⟨(h.keeps t ht).operation, (h.keeps t ht).todo⟩,
    h.listed, h.units, h.client, h.clients⟩

/-- The course at the start of an agenda. -/
def startCourse (w : Agenda) (rounds : RoundConfig) : Course :=
  { live := rounds, staged := rounds, desk := { todo := fun t => w.routine t.raw } }

/-- The course at the start is sound. -/
lemma sound_startCourse (w : Agenda) (rounds : RoundConfig) :
    (startCourse w rounds).Sound w.routine where
  desk := ⟨by simp [startCourse], fun _ => List.nodup_nil, fun _ _ => rfl, nofun⟩
  seated := nofun
  listed := nofun
  numbered := nofun
  retired := nofun
  asking := nofun
  fresh _ _ := rfl
  owned := nofun

/-- A new system is shadowed by the course at the start. -/
lemma shadow_initial (hinitial : System.initial w.config = .ok sys) :
    ∃ rounds, Shadow w sys (startCourse w rounds) := by
  obtain ⟨rounds, -, rfl⟩ := Invariant.exists_rounds_of_initial hinitial
  refine ⟨rounds, ?_⟩
  constructor
  case mirrors =>
    exact ⟨rfl, rfl, rfl, rfl, rfl, fun _ => rfl, fun _ => rfl, nofun, nofun, rfl, rfl,
      fun _ => rfl⟩
  case filling =>
    intro f
    constructor
    · intro hf
      cases hf
    · rintro ⟨a, ha⟩
      cases ha
  case keeps =>
    intro t ht
    cases ht
  case listed => simp [startCourse, Agenda.submissions]
  case units =>
    intro t call hcall
    cases hcall
  case client => exact .outside rfl
  case clients => exact fun n => rfl

/-- The start of an agenda has the course of the start. -/
lemma of_start (h : w.start? = some sys) : ∃ rounds, Shadow w sys (startCourse w rounds) := by
  refine Agenda.start?_induction h (fun first hfirst => shadow_initial hfirst) ?_
  rintro sys ⟨rounds, hshadow⟩
  exact ⟨rounds, hshadow.newLock (fun _ => rfl) fun _ => rfl⟩

/-- Every system that comes from another one by following the agenda has a course that comes from
the course of the other one. -/
theorem path {c₀ : Course} {start : System} (hstart : w.start? = some start)
    (hs : c₀.Sound w.routine) (h : Shadow w start c₀)
    (hpath : Relation.ReflTransGen w.Step start sys) :
    ∃ c, Relation.ReflTransGen (Course.Goes w.eligible w.routine) c₀ c ∧ c.Sound w.routine ∧
      Shadow w sys c := by
  induction hpath with
  | refl => exact ⟨c₀, .refl, hs, h⟩
  | tail hpath hstep ih =>
    obtain ⟨c, hgoes, hsound, hshadow⟩ := ih
    have hreaches : w.Reaches _ := ⟨start, hstart, hpath⟩
    obtain ⟨c', rfl | ⟨a, ha⟩, hshadow'⟩ :=
      hshadow.step (Invariant.of_reachable hreaches.reachable) hsound hstep
    · exact ⟨_, hgoes, hsound, hshadow'⟩
    · exact ⟨c', hgoes.tail ⟨hsound, a, ha⟩, hsound.fires ha, hshadow'⟩

end Shadow

end RoundScheduler
