import RoundScheduler.Proofs.Workload.Tracking

/-!
# What the moves of the workload come to

Whoever makes a move in an operation goes on with it, is done with it, or has submitted a unit:
nothing in the workload is refused, and nothing breaks off. `Tracked.news` says so for every move
that the agenda permits, with what the move means to the agent and to all others, and with what the
agenda still has for them.
-/

namespace RoundScheduler

open State

/-! ### Threads that leave -/

/-- Whoever is about to leave its last operation has retired. -/
def System.Leaving (sys : System) : Prop :=
  ∀ t ph, sys.phase? (.unit t) = some ph → ph.leaving = true → sys.state.IsBuried t

namespace System.Leaving

variable {sys sys' : System} {c : Config}

/-- A thread gets there by retiring. -/
lemma stretch {eligible : ThreadId → Bool} {s s' : State} {t u : ThreadId} {ph ph' : Phase}
    (hs : s.Sound) (ho : Stretch eligible s t ph (.goto s' (.thread u ph')))
    (hleaving : ph'.leaving = true) : ph.leaving = true ∨ s'.IsBuried t := by
  cases ho with
  | retired slot hslot => exact .inr (hs.isBuried_afterRetirement hslot)
  | closed k => exact .inl (((AfterFill.recheck k).leaving_phase 0 s.staged).trans hleaving)
  | skipped index plan k | chosen index plan k =>
    exact .inl ((k.leaving_fill index (index + 1) plan plan).trans hleaving)
  | filled index plan k => exact .inl ((k.leaving_phase index plan).symm.trans hleaving)
  | stillOpen k ph' hk => cases k <;> cases hk <;> cases hleaving
  | _ => cases hleaving

/-- Every move keeps that. -/
theorem step (h : sys.Leaving) (hinv : Invariant sys) (hs : System.Step sys sys') :
    sys'.Leaving := by
  intro t ph hph hleaving
  have hburied : sys.state.IsBuried t → sys'.state.IsBuried t := fun hbefore => by
    rcases hinv.effect hs with ⟨w, hchange⟩ | harrival
    · exact hchange.isBuried hinv.sound hbefore
    · exact harrival.isBuried hbefore
  obtain ⟨eligible, m, hm⟩ := hs
  cases hinv.transition hm with
  | call a op o hinside hidle halive hlocks ho =>
    rw [System.phase?_apply hidle] at hph
    split at hph
    · cases ho <;> cases hph <;> cases hleaving
    · exact hburied (h t ph hph hleaving)
  | stretch u op ph' o hinside hcall hop ho =>
    rw [System.phase?_apply hcall] at hph
    split at hph
    · next htu =>
      cases htu
      have hplace : sys.phase? (.unit t) = some ph' := by rw [System.phase?, hcall]; rfl
      cases o with
      | goto s' p =>
        cases p with
        | submission p => cases hph
        | thread v ph =>
          cases hph
          rcases stretch hinv.sound ho hleaving with hbefore | hafter
          · exact hburied (h t ph' hplace hbefore)
          · rw [System.state_apply]
            exact hafter
      | sleep =>
        cases hph
        exact hburied (h t ph hplace hleaving)
      | pause s' p => cases ho
      | reply s' r => cases hph
    · exact hburied (h t ph hph hleaving)
  | intake a op p o hinside hcall ho =>
    rw [System.phase?_apply hcall] at hph
    split at hph
    · cases ho <;> cases hph
    · exact hburied (h t ph hph hleaving)
  | enter a call hinside hcall => exact hburied (h t ph hph hleaving)
  | newLock hinside => exact hburied (h t ph hph hleaving)
  | dropLock l hinside hl hunused => exact hburied (h t ph hph hleaving)

/-- In every reachable system whoever leaves for good has retired. -/
theorem of_reachable (h : System.Reachable c sys) : sys.Leaving := by
  induction h using System.Reachable.induction with
  | initial sys h =>
    obtain ⟨rounds, -, rfl⟩ := Invariant.exists_rounds_of_initial h
    intro t ph hph
    cases hph
  | step sys sys' h hs ih => exact ih.step (Invariant.of_reachable h) hs

end System.Leaving

/-! ### What is left to call -/

namespace Agenda

/-- The operations that somebody has still to call after some returns, with the one under way. -/
def outstanding (w : Agenda) (returns : List Return) : Agent → List Operation
  | .unit t => (w.todo t returns).map (·.order.operation) ++ [.retire]
  | .client 0 =>
    (List.range' (submissions returns) (w.units.length - submissions returns)).map fun i =>
      .submit (.scripted i)
  | .client _ => []

variable {w : Agenda} {sys : System} {returns : List Return} {a : Agent} {t : ThreadId}
  {op : Operation} {ops : List Operation} {n : Nat}

/-- The agenda asks for the first of them. -/
lemma next?_eq_head? : w.next? sys a = (w.outstanding sys.returns a).head? := by
  cases a with
  | unit t =>
    rw [next?, outstanding]
    cases w.todo t sys.returns <;> rfl
  | client n =>
    cases n with
    | succ n => rfl
    | zero =>
      rw [next?, outstanding, List.head?_map, List.head?_range']
      split <;> split <;> first | rfl | omega

/-- A unit that was answered has the rest of its operations left. -/
lemma outstanding_of_done (h : w.outstanding returns (.unit t) = op :: ops) (hop : op ≠ .retire) :
    w.outstanding (⟨.unit t, op, .done⟩ :: returns) (.unit t) = ops := by
  rw [outstanding] at h ⊢
  cases htodo : w.todo t returns with
  | nil =>
    rw [htodo] at h
    cases h
    exact absurd rfl hop
  | cons i rest =>
    rw [htodo] at h
    cases h
    simp [todo, Return.unit?, htodo, Reply.verdict, Routine.after]

/-- What a unit is answered does not matter to others. -/
lemma outstanding_of_ne {reply : Reply} (ha : a ≠ .unit t) :
    w.outstanding (⟨.unit t, op, reply⟩ :: returns) a = w.outstanding returns a := by
  cases a with
  | unit u =>
    have hne : t ≠ u := fun h => ha (h ▸ rfl)
    simp [outstanding, todo, Return.unit?, hne]
  | client n =>
    cases n with
    | zero => simp [outstanding, submissions]
    | succ n => rfl

/-- As long as a client has something left it has units to submit. -/
lemma lt_of_outstanding (h : w.outstanding returns (.client 0) = op :: ops) :
    op = .submit (.scripted (submissions returns)) ∧ submissions returns < w.units.length := by
  rw [outstanding] at h
  cases hleft : w.units.length - submissions returns with
  | zero =>
    rw [hleft] at h
    cases h
  | succ k =>
    rw [hleft, List.range'_succ, List.map_cons] at h
    cases h
    exact ⟨rfl, by omega⟩

/-- Somebody submits the unit with the number `n` and learns that it is the thread with this
number. -/
def submitted (n : Nat) : Return := ⟨.client 0, .submit (.scripted n), .thread ⟨n⟩⟩

/-- A client whose submission was answered has the submissions after it left. -/
lemma outstanding_of_submitted (h : w.outstanding returns (.client 0) = op :: ops) :
    w.outstanding (submitted n :: returns) (.client 0) = ops := by
  have hcount : submissions (submitted n :: returns) = submissions returns + 1 := by
    simp [submissions, submitted]
  rw [outstanding, hcount]
  rw [outstanding] at h
  cases hleft : w.units.length - submissions returns with
  | zero =>
    rw [hleft] at h
    cases h
  | succ k =>
    rw [hleft, List.range'_succ, List.map_cons] at h
    cases h
    rw [Nat.sub_add_eq, hleft, Nat.add_sub_cancel]

/-- The thread that a client learns of has all of its unit left to do. -/
lemma outstanding_submitted : w.outstanding (submitted n :: returns) (.unit ⟨n⟩) =
    (w.routine n).map (·.order.operation) ++ [.retire] := by
  simp [outstanding, todo, submitted, Return.unit?]

/-- A submission does not matter to other threads. -/
lemma outstanding_of_submitted_of_ne (ha : a ≠ .client 0) (hn : a ≠ .unit ⟨n⟩) :
    w.outstanding (submitted n :: returns) a = w.outstanding returns a := by
  cases a with
  | unit u =>
    have hne : (⟨n⟩ : ThreadId) ≠ u := fun h => hn (h ▸ rfl)
    simp [outstanding, todo, submitted, Return.unit?, hne]
  | client m =>
    cases m with
    | zero => exact absurd rfl ha
    | succ m => rfl

end Agenda

/-! ### Who makes a move, and what comes of it -/

namespace System

/-- An agent makes a move in an operation. -/
inductive Makes (sys : System) (a : Agent) : Operation → Move → Prop
  /-- It calls the operation. -/
  | call (op : Operation) : Makes sys a op (.call a op)
  /-- It goes on inside the critical section. -/
  | advance (call : Call) (hinside : sys.inside = some a)
    (hcall : sys.calls.get? a = some call) : Makes sys a call.operation .advance
  /-- It enters the critical section. -/
  | enter (call : Call) (hcall : sys.calls.get? a = some call) :
    Makes sys a call.operation (.enter a)

/-- What a move of somebody means to all others. -/
structure Spares (a : Agent) (sys sys' : System) : Prop where
  /-- They stay where they are. -/
  calls : ∀ b, b ≠ a → sys'.calls.get? b = sys.calls.get? b
  /-- They can still call operations. -/
  alive : ∀ b, b ≠ a → sys.isAlive b = true → sys'.isAlive b = true
  /-- They are outside of the critical section afterwards. -/
  inside : ∀ b, sys'.inside = some b → b = a

/-- What a move of somebody in an operation comes to, if nothing is refused and nothing breaks
off. -/
inductive News (a : Agent) (op : Operation) (sys sys' : System) : Prop
  /-- The operation goes on. -/
  | goesOn (call : Call) (hcall : sys'.calls.get? a = some call) (hop : call.operation = op)
    (hreturns : sys'.returns = sys.returns)
    (hscheduled : sys'.state.scheduled = sys.state.scheduled)
    (hold : ∀ t, sys'.state.isAlive t = true → sys.state.isAlive t = true)
  /-- A thread is done with it. -/
  | done (t : ThreadId) (ha : a = .unit t) (hcall : sys'.calls.get? a = none)
    (hreturns : sys'.returns = ⟨a, op, .done⟩ :: sys.returns)
    (hscheduled : sys'.state.scheduled = sys.state.scheduled)
    (hold : ∀ t, sys'.state.isAlive t = true → sys.state.isAlive t = true)
    (halive : sys'.state.isAlive t = true ↔ op ≠ .retire)
  /-- A unit was submitted. -/
  | submitted (n : Nat) (ha : a = .client 0) (hop : op = .submit (.scripted n))
    (hcall : sys'.calls.get? a = none)
    (hreturns : sys'.returns = Agenda.submitted n :: sys.returns)
    (hidle : sys'.calls.get? (.unit ⟨n⟩) = none)
    (hlisted : sys'.state.journal.head?.bind Entry.listed? = some (⟨n⟩, .scripted n))
    (hscheduled : sys.state.scheduled < sys'.state.scheduled)
    (hold : ∀ t, sys'.state.isAlive t = true → sys.state.isAlive t = true ∨ t = ⟨n⟩)
    (halive : sys'.state.isAlive ⟨n⟩ = true)

variable {sys sys' : System} {a : Agent} {op : Operation} {m : Move} {eligible : ThreadId → Bool}
  {o : Outcome} {t : ThreadId} {ph : Phase}

/-- Nobody minds what others do. -/
theorem Makes.spares (h : sys.Makes a op m) (hinv : Invariant sys)
    (hm : sys.move? eligible m = some sys') : Spares a sys sys' := by
  -- Calls change for the agent alone; whether others are alive is a matter of the state.
  have hspares : ∀ {op o}, (∀ u, a ≠ .unit u → Calm sys.state (o.state sys.state) u) →
      Spares a sys (sys.apply a op o) := fun {op o} hcalm => by
    refine ⟨fun b hb => ?_, fun b hb hbefore => ?_, fun b hb => ?_⟩
    · rw [get?_calls_apply, if_neg hb]
    · cases b with
      | client n => rfl
      | unit u =>
        have halive := (hcalm u (Ne.symm hb)).alive hbefore
        rwa [isAlive, state_apply]
    · cases o <;> cases hb
      rfl
  cases h with
  | call =>
    cases hinv.transition hm with
    | call a op o hinside hidle halive hlocks ho =>
      exact hspares fun u _ => (ho.change (w := none)).calm hinv.sound fun hw => by cases hw
  | enter call hcall =>
    cases hinv.transition hm with
    | enter => exact ⟨fun _ _ => rfl, fun _ _ => id, fun _ hb => (Option.some_inj.mp hb).symm⟩
  | advance call hinside hcall =>
    cases hinv.transition hm with
    | stretch t op ph o hinside' hcall' hop ho =>
      obtain rfl : a = .unit t := Option.some_inj.mp (hinside.symm.trans hinside')
      exact hspares fun u hu => (hinv.stretch_change hcall' hop ho).calm hinv.sound
        fun htu => hu (congrArg Agent.unit (Option.some_inj.mp htu))
    | intake b op p o hinside' hcall' ho =>
      obtain rfl : a = b := Option.some_inj.mp (hinside.symm.trans hinside')
      refine hspares fun u _ => ?_
      rcases hinv.intake_arrival hcall' ho with heq | harrival
      · exact heq.symm ▸ calm_refl _ u
      · exact harrival.calm hinv.sound

/-- A call that goes on is news of that kind. -/
lemma News.of_goto {s : State} {p : Point} {w : Option ThreadId} (hinv : Invariant sys)
    (hchange : Change sys.state w s) : News a op sys (sys.apply a op (.goto s p)) := by
  refine .goesOn ⟨op, p⟩ ?_ rfl rfl (hchange.scheduled_eq hinv.sound) fun t => ?_
  · rw [get?_calls_apply, if_pos rfl]
    rfl
  · exact hchange.alive hinv.sound

/-- Whoever looks and sleeps on is where it was. -/
lemma News.of_same {inside : Option Agent} {call : Call} (hcall : sys.calls.get? a = some call) :
    News a call.operation sys { sys with inside } :=
  .goesOn call hcall rfl rfl rfl fun _ => id

/-- A thread that is answered is done. -/
lemma News.of_reply {s : State} {w : Option ThreadId} (hinv : Invariant sys)
    (hchange : Change sys.state w s) (halive : s.isAlive t = true ↔ op ≠ .retire) :
    News (.unit t) op sys (sys.apply (.unit t) op (.reply s .done)) := by
  refine .done t rfl ?_ rfl (hchange.scheduled_eq hinv.sound) (fun u => ?_) halive
  · rw [get?_calls_apply, if_pos rfl]
    rfl
  · exact hchange.alive hinv.sound

end System

/-- A thread that is answered stays what it was, and its answer is a good one unless it staged a
configuration. -/
lemma Stretch.reply_cases {eligible : ThreadId → Bool} {s s' : State} {t : ThreadId} {ph : Phase}
    {r : Reply} (ho : Stretch eligible s t ph (.reply s' r)) :
    (∃ q, ph = .awaitPrimary (.reconfigure q)) ∨
      r = .done ∧ s'.isAlive t = s.isAlive t ∧ (ph.operation = .retire → ph.leaving = true) := by
  have hturn : ∀ slot, (s.afterTurn t slot).isAlive t = s.isAlive t := fun slot =>
    isAlive_of_map (record?_afterTurn slot) fun _ => ⟨rfl, rfl⟩
  cases ho with
  | turn slot => exact .inr ⟨rfl, hturn slot, nofun⟩
  | granted l k slot => exact .inr ⟨rfl, hturn slot, nofun⟩
  | handed => exact .inr ⟨rfl, rfl, nofun⟩
  | left => exact .inr ⟨rfl, rfl, fun _ => rfl⟩
  | staged q | refused q | overflowed q => exact .inl ⟨q, rfl⟩

/-- Nothing is added to a routine on the way. -/
lemma Routine.mem_of_mem_after {r : Routine} {v : Verdict} {i : Instruction} (h : i ∈ r.after v) :
    i ∈ r := by
  cases r with
  | nil => cases h
  | cons j rest =>
    cases v with
    | done => exact List.mem_cons_of_mem j h
    | refused =>
      rw [after] at h
      split at h
      · cases h
      · exact List.mem_cons_of_mem j h
    | failed => cases h

namespace Workload

/-- What a unit of the workload asks for. -/
inductive Usual : Operation → Prop
  /-- It enters a critical section. -/
  | lock : Usual (.lock lock)
  /-- It leaves one. -/
  | unlock : Usual (.unlock lock)
  /-- It retires. -/
  | retire : Usual .retire

variable {w : Workload} {cfg : Config} {sys sys' : System} {c : Course} {t : ThreadId} {a : Agent}
  {op : Operation} {ops : List Operation} {m : Move} {i : Instruction}

/-- Units take and release the one lock. -/
lemma usual_of_mem_sections {n : Nat} (h : i ∈ sections n) : Usual i.order.operation := by
  obtain ⟨l, hl, hi⟩ := List.mem_flatten.mp h
  rw [(List.mem_replicate.mp hl).2] at hi
  rcases List.mem_pair.mp hi with rfl | rfl
  · exact .lock
  · exact .unlock

/-- Whatever a unit was answered, it takes and releases the one lock. -/
lemma usual_of_mem_todo {returns : List Return} (h : i ∈ (w.agenda cfg).todo t returns) :
    Usual i.order.operation := by
  induction returns with
  | nil => cases h
  | cons r returns ih =>
    rw [Agenda.todo] at h
    split at h
    · next n hn =>
      rcases Nat.lt_or_ge n (w.size cfg) with hlt | hge
      · rw [w.routine_agenda cfg hlt] at h
        exact usual_of_mem_sections h
      · have hnone : (w.agenda cfg).routine n = [] := by
          simp [Agenda.routine, agenda, List.getD, hge]
        rw [hnone] at h
        cases h
    · split at h
      · exact ih (Routine.mem_of_mem_after h)
      · exact ih h

/-- Everything that is left to a unit is usual. -/
lemma usual_of_outstanding {returns : List Return}
    (h : op ∈ (w.agenda cfg).outstanding returns (.unit t)) : Usual op := by
  rcases List.mem_append.mp h with h | h
  · obtain ⟨i, hi, rfl⟩ := List.mem_map.mp h
    exact usual_of_mem_todo hi
  · obtain rfl := List.mem_singleton.mp h
    exact .retire

/-- What is left to somebody uses no lock but the one, and it can be called. -/
lemma startable_of_outstanding {s : State} {returns : List Return}
    (h : (w.agenda cfg).outstanding returns a = op :: ops) :
    (∀ l ∈ op.locks, l = lock) ∧ ∃ o, op.start? s a = some o := by
  cases a with
  | unit t =>
    have husual : Usual op := usual_of_outstanding (h ▸ List.mem_cons_self)
    cases husual with
    | lock | unlock => exact ⟨fun l hl => List.mem_singleton.mp hl, _, rfl⟩
    | retire => exact ⟨nofun, _, rfl⟩
  | client n =>
    cases n with
    | zero =>
      obtain ⟨rfl, -⟩ := Agenda.lt_of_outstanding h
      exact ⟨nofun, _, rfl⟩
    | succ n => cases h

/-- The next operation of a unit is a usual one. -/
lemma usual_of_next? (h : (w.agenda cfg).next? sys (.unit t) = some op) : Usual op :=
  usual_of_outstanding (List.mem_of_mem_head? (Agenda.next?_eq_head?.symm.trans h))

namespace Tracked

/-- A unit that calls its next operation is not refused it. -/
lemma not_refused (h : Tracked w cfg sys c) (hinv : Invariant sys)
    (hidle : sys.calls.get? (.unit t) = none) (halive : sys.state.isAlive t = true) {l : LockId}
    {k : LockState} (hk : sys.state.lock? l = some k) :
    (((w.agenda cfg).todo t sys.returns).operation = .lock l → k.owner ≠ some t) ∧
      (((w.agenda cfg).todo t sys.returns).operation = .unlock l → k.owner = some t) := by
  have hactive := h.shadow.active_of_idle hinv hidle halive
  have htodo := (h.shadow.keeps t halive).todo
  rw [Shadow.hands_of_idle hidle, if_neg Bool.false_ne_true] at htodo
  rw [← htodo, ← h.shadow.mirrors.owner l k hk]
  rcases h.contention.next?_cases (h.contention.lt_size h.sound hactive.listed)
    hactive.unlinked with ⟨howner, hnext⟩ | ⟨howner, -, ⟨-, hnext⟩ | ⟨-, hnil⟩⟩
  · rw [Desk.operation_of_next? hnext]
    refine ⟨nofun, fun hop => ?_⟩
    cases hop
    exact howner
  · rw [Desk.operation_of_next? hnext]
    refine ⟨fun hop => ?_, nofun⟩
    cases hop
    exact howner
  · rw [hnil]
    exact ⟨nofun, nofun⟩

/-- A unit that is alive and in an operation is in a usual one. -/
lemma usual_of_call (h : Tracked w cfg sys c) (halive : sys.state.isAlive t = true) {call : Call}
    (hcall : sys.calls.get? (.unit t) = some call) : Usual call.operation := by
  rw [(h.shadow.keeps t halive).operation call hcall]
  exact @usual_of_next? w cfg sys t _ rfl

/-- The call of a unit is news. -/
lemma news_of_call (h : Tracked w cfg sys c) (hinv : Invariant sys) {o : Outcome}
    (hidle : sys.calls.get? (.unit t) = none) (halive : sys.state.isAlive t = true)
    (hop : op = ((w.agenda cfg).todo t sys.returns).operation)
    (ho : Opening sys.state (.unit t) op o) (husual : Usual op) :
    System.News (.unit t) op sys (sys.apply (.unit t) op o) := by
  have hreply : ∀ {s}, Change sys.state none s → op ≠ .retire →
      System.News (.unit t) op sys (sys.apply (.unit t) op (.reply s .done)) :=
    fun hchange hop => .of_reply hinv hchange
      (iff_of_true ((hchange.calm hinv.sound nofun).alive halive) hop)
  cases husual with
  | lock =>
    cases ho with
    | lock => exact .of_goto hinv (.stay (w := none))
    | relock _ _ k hk howner =>
      exact absurd howner ((h.not_refused hinv hidle halive hk).1 hop.symm)
  | unlock =>
    cases ho with
    | notOwner _ _ k hk howner =>
      exact absurd ((h.not_refused hinv hidle halive hk).2 hop.symm) howner
    | released _ _ k hk howner hqueue => exact hreply (.release t lock k hk howner hqueue) nofun
    | handedOver _ _ k next rest hk howner hqueue =>
      exact hreply (.handOver t lock k next rest hk howner hqueue) nofun
  | retire =>
    cases ho with
    | retire => exact .of_goto hinv (.stay (w := none))

/-- What a unit does inside an operation is news. -/
lemma news_of_stretch (h : Tracked w cfg sys c) (hreach : System.Reachable cfg sys) {o : Outcome}
    {ph : Phase} (hcall : sys.calls.get? (.unit t) = some ⟨op, .thread t ph⟩)
    (hop : op = ph.operation) (ho : Stretch (w.agenda cfg).eligible sys.state t ph o) :
    System.News (.unit t) op sys (sys.apply (.unit t) op o) := by
  have hinv := Invariant.of_reachable hreach
  have hchange := hinv.stretch_change hcall hop ho
  have hplaced := hcall ▸ hinv.placed (.unit t)
  cases o with
  | sleep => exact .of_same hcall
  | goto s p => exact .of_goto hinv hchange
  | pause s p => cases ho
  | reply s r =>
    rcases ho.reply_cases with ⟨q, rfl⟩ | ⟨rfl, halive, hretire⟩
    · -- No unit asks for a configuration.
      have husual := h.usual_of_call (hplaced.alive rfl) hcall
      subst hop
      cases husual
    · refine .of_reply hinv hchange ?_
      rw [halive, hop]
      have hplace : sys.phase? (.unit t) = some ph := by rw [System.phase?, hcall]; rfl
      cases hleaving : ph.leaving with
      | false =>
        refine iff_of_true (hplaced.alive hleaving) fun hop => ?_
        cases hleaving.symm.trans (hretire hop)
      | true =>
        have hburied := System.Leaving.of_reachable hreach t ph hplace hleaving
        exact iff_of_false (by simp [hburied.isAlive_eq_false])
          (not_not.mpr (Phase.operation_of_leaving hleaving))

/-- What the client does inside a submission is news. -/
lemma news_of_intake (h : Tracked w cfg sys c) (hinv : Invariant sys)
    (hnames : sys.config.namesWorkers = true) {o : Outcome} {p : Submission}
    (hcall : sys.calls.get? a = some ⟨op, .submission p⟩)
    (ho : Intake sys.config sys.state p o) : System.News a op sys (sys.apply a op o) := by
  obtain rfl : a = .client 0 := by
    cases a with
    | unit t =>
      have hsubmits := (hcall ▸ hinv.placed (.unit t)).of_submission.1
      exact absurd ((h.shadow.units t _ hcall).2.symm.trans hsubmits) nofun
    | client n =>
      cases n with
      | zero => rfl
      | succ n => exact absurd ((h.shadow.clients n).symm.trans hcall) nofun
  have harrival := hinv.intake_arrival hcall ho
  have hclient := h.shadow.client
  rw [hcall] at hclient
  have hgoto : ∀ {s q}, s.scheduled = sys.state.scheduled →
      (∀ t, s.isAlive t = true → sys.state.isAlive t = true) →
      System.News (.client 0) op sys (sys.apply (.client 0) op (.goto s q)) :=
    fun {s q} hscheduled halive => .goesOn ⟨op, q⟩ (by
      rw [System.get?_calls_apply, if_pos rfl]
      rfl) rfl rfl hscheduled halive
  generalize hn : Agenda.submissions sys.returns = n at hclient
  cases hclient with
  | enrol hraw =>
    cases ho with
    | blocked => exact hgoto rfl fun t => Shadow.alive_of_enrol
    | passed => exact hgoto rfl fun t => Shadow.alive_of_enrol
  | wait hraw =>
    cases ho with
    | sleepForAdmission => exact .of_same hcall
    | admitted => exact hgoto rfl fun t => id
  | list hraw =>
    cases ho with
    | listed _ _ hnames' =>
      refine .submitted n rfl rfl ?_ rfl ?_ rfl (Nat.lt_succ_self _) (fun t ht => ?_) ?_
      · rw [System.get?_calls_apply, if_pos rfl]
        rfl
      · rw [System.get?_calls_apply, if_neg (by simp)]
        refine Option.eq_none_iff_forall_ne_some.mpr fun call hcall => ?_
        have hlt := (h.shadow.units _ call hcall).1
        rw [h.shadow.listed, if_pos hnames, hn] at hlt
        exact Nat.lt_irrefl n hlt
      · rw [System.state_apply, Outcome.state, isAlive, record?_list] at ht
        by_cases htn : t = ⟨n⟩
        · exact .inr htn
        · exact .inl (by simpa [isAlive, htn] using ht)
      · have hunstarted := hinv.submitters.unstarted (.client 0) _ ⟨n⟩
          (by rw [System.submission?, hcall]; rfl) rfl
        obtain ⟨r, hr, -⟩ := Option.map_eq_some_iff.mp hunstarted
        have hterminated := hinv.sound.not_terminated_of_unstarted hunstarted
        rw [hasTerminated, hr] at hterminated
        simpa [Outcome.state, isAlive, record?_list, hr] using hterminated
    | unnamed _ _ _ hnames' => cases hnames.symm.trans hnames'

/-- Every move that the agenda permits is news. -/
theorem news (h : Tracked w cfg sys c) (hreach : System.Reachable cfg sys)
    (hnames : cfg.namesWorkers = true) (hmakes : sys.Makes a op m)
    (hpermits : (w.agenda cfg).permits sys m = true)
    (hm : sys.move? (w.agenda cfg).eligible m = some sys') : System.News a op sys sys' := by
  have hinv := Invariant.of_reachable hreach
  cases hmakes with
  | call =>
    cases hinv.transition hm with
    | call a op o hinside hidle halive hlocks ho =>
      have hnext : (w.agenda cfg).next? sys a = some op := by
        simpa [Agenda.permits] using hpermits
      cases a with
      | unit t =>
        have hop := (Option.some_inj.mp hnext).symm
        exact h.news_of_call hinv hidle halive hop ho (usual_of_next? hnext)
      | client n =>
        cases n with
        | succ n => cases hnext
        | zero =>
          obtain ⟨-, hop⟩ := Option.ite_none_right_eq_some.mp hnext
          cases hop
          cases ho with
          | submit => exact .of_goto hinv (.stay (w := none))
  | advance call hinside hcall =>
    cases hinv.transition hm with
    | stretch t op ph o hinside' hcall' hop ho =>
      obtain rfl : a = .unit t := Option.some_inj.mp (hinside.symm.trans hinside')
      cases hcall.symm.trans hcall'
      exact h.news_of_stretch hreach hcall hop ho
    | intake b op p o hinside' hcall' ho =>
      obtain rfl : a = b := Option.some_inj.mp (hinside.symm.trans hinside')
      cases hcall.symm.trans hcall'
      exact h.news_of_intake hinv (hreach.config_eq ▸ hnames) hcall ho
  | enter call hcall =>
    cases hinv.transition hm with
    | enter => exact .of_same hcall

end Tracked
end Workload

end RoundScheduler
