import RoundScheduler.Proofs.Determinism.SameRound
import RoundScheduler.Proofs.FillRound.Docket

/-!
# Filling a round as submitting units

What a docket makes of a scheduler could as well come from an agenda in which the units without work
that fill rounds are units like the others. Only the journal would say something else about the work
of the threads, and nothing else reads it. So once it is known which work the threads were listed
for, a run that follows the docket is mimicked by one that follows the agenda with these units.
-/

namespace RoundScheduler

open State

/-! ### What the journal says of the work -/

/-- An entry with every thread listed for the unit of its number. -/
def Entry.asUnit : Entry → Entry
  | .note (.listed t _) => .note (.listed t (.scripted t.raw))
  | e => e

/-- A state whose journal says that every thread was listed for the unit of its number. -/
def State.asUnits (s : State) : State := { s with journal := s.journal.map Entry.asUnit }

/-- An outcome with such a state. -/
def Outcome.asUnits : Outcome → Outcome
  | sleep => sleep
  | goto s p => goto s.asUnits p
  | pause s p => pause s.asUnits p
  | reply s r => reply s.asUnits r

/-- A choice that does not look at the work of threads. -/
lemma Outcome.ite_asUnits {p q : Prop} [Decidable p] [Decidable q] {o o₁ o' o₁' : Outcome}
    (hpq : p ↔ q) (ho : o' = o.asUnits) (ho₁ : o₁' = o₁.asUnits) :
    (if p then o' else o₁') = (if q then o else o₁).asUnits := by
  by_cases hp : p
  · rw [if_pos hp, if_pos (hpq.mp hp), ho]
  · rw [if_neg hp, if_neg (mt hpq.mpr hp), ho₁]

namespace State

variable {s : State} {me : ThreadId}

/-- The owner of the next step is woken whatever its work is. -/
lemma wakeHead_asUnits : s.asUnits.wakeHead = s.wakeHead.asUnits := by
  have hhead : s.asUnits.headPrimary? = s.headPrimary? := rfl
  unfold wakeHead
  rw [hhead]
  cases s.headPrimary? <;> rfl

/-- The locks of a thread are noted whatever its work is. -/
lemma noteHeldLocks_asUnits : (s.asUnits).noteHeldLocks me = (s.noteHeldLocks me).asUnits := by
  have hlocks : s.asUnits.locksOf me = s.locksOf me := rfl
  unfold noteHeldLocks
  rw [hlocks]
  cases s.locksOf me <;> rfl

/-- A round begins whatever the work of the threads is. -/
lemma beginRound_asUnits : s.asUnits.beginRound = s.beginRound.asUnits := by
  have hany : s.asUnits.threadList.any s.asUnits.hasTerminated =
      s.threadList.any s.hasTerminated := rfl
  unfold beginRound
  simp only [hany]
  split <;> rfl

/-- A record is looked up whatever the work of its thread is. -/
lemma withRecord_asUnits {t : ThreadId} {k k' : ThreadRecord → Outcome}
    (h : ∀ r, k' r = (k r).asUnits) : s.asUnits.withRecord t k' = (s.withRecord t k).asUnits := by
  have hrecord : s.asUnits.record? t = s.record? t := rfl
  unfold withRecord
  rw [hrecord]
  cases s.record? t with
  | none => rfl
  | some r => exact h r

/-- A slot is looked up whatever the work of its thread is. -/
lemma withSlot_asUnits {t : ThreadId} {k k' : Slot → Outcome}
    (h : ∀ slot, k' slot = (k slot).asUnits) :
    s.asUnits.withSlot t k' = (s.withSlot t k).asUnits := by
  have hslot : s.asUnits.slotOf? t = s.slotOf? t := rfl
  unfold withSlot
  rw [hslot]
  cases s.slotOf? t with
  | none => rfl
  | some slot => exact h slot

/-- A lock is looked up whatever the work of the threads is. -/
lemma withLock_asUnits {l : LockId} {k k' : LockState → Outcome}
    (h : ∀ lock, k' lock = (k lock).asUnits) :
    s.asUnits.withLock l k' = (s.withLock l k).asUnits := by
  have hlock : s.asUnits.lock? l = s.lock? l := rfl
  unfold withLock
  rw [hlock]
  cases s.lock? l with
  | none => rfl
  | some lock => exact h lock

/-- Records are required whatever the work of the threads is. -/
lemma requiring_asUnits {ts : List ThreadId} {k k' : Outcome} (h : k' = k.asUnits) :
    s.asUnits.requiring ts k' = (s.requiring ts k).asUnits := by
  have hunrecorded : s.asUnits.unrecorded? ts = s.unrecorded? ts := rfl
  unfold requiring
  rw [hunrecorded]
  cases s.unrecorded? ts with
  | none => exact h
  | some t => rfl

/-- The next round is started whatever the work of the threads is. -/
lemma startRound_asUnits {k : AfterFill} :
    s.asUnits.startRound me k = (s.startRound me k).asUnits :=
  requiring_asUnits (by rw [beginRound_asUnits]; rfl)

/-- A lock is asked for whatever the work of the threads is. -/
lemma askForLock_asUnits {l : LockId} :
    s.asUnits.askForLock me l = (s.askForLock me l).asUnits :=
  withLock_asUnits fun _ => Outcome.ite_asUnits .rfl rfl rfl

/-- A configuration is staged whatever the work of the threads is. -/
lemma stage_asUnits {r : Request} : s.asUnits.stage me r = (s.stage me r).asUnits := by
  refine Outcome.ite_asUnits .rfl rfl ?_
  have hstaged : s.asUnits.staged = s.staged := rfl
  rw [hstaged]
  dsimp only
  cases RoundConfig.roundRobin (r.resolve s.staged).1 (r.resolve s.staged).2 with
  | error e => cases e <;> rfl
  | ok rounds => rfl

/-- A step serves its purpose whatever the work of the threads is. -/
lemma serve_asUnits {p : Purpose} : s.asUnits.serve me p = (s.serve me p).asUnits := by
  cases p with
  | turn => rfl
  | lock l => exact askForLock_asUnits
  | reconfigure r => exact stage_asUnits

/-- A turn is taken whatever the work of the threads is. -/
lemma attempt_asUnits {slot : Slot} {p : Purpose} :
    s.asUnits.attempt me slot p = (s.attempt me slot p).asUnits := by
  refine Outcome.ite_asUnits .rfl rfl (Outcome.ite_asUnits .rfl ?_ rfl)
  have hturn : s.asUnits.takeTurn me slot = (s.takeTurn me slot).asUnits := rfl
  rw [hturn]
  exact requiring_asUnits (by rw [wakeHead_asUnits, serve_asUnits])

/-- A thread retires whatever its work was. -/
lemma retire_asUnits {slot : Slot} : s.asUnits.retire me slot = (s.retire me slot).asUnits := by
  have hstrip : (s.noteHeldLocks me).asUnits.strip me slot =
      ((s.noteHeldLocks me).strip me slot).asUnits := rfl
  unfold retire
  rw [noteHeldLocks_asUnits, hstrip]
  exact requiring_asUnits (by rw [wakeHead_asUnits]; rfl)

/-- A thread goes on after its look at the round whatever its work is. -/
lemma proceed_asUnits {k : AfterCheck} : s.asUnits.proceed me k = (s.proceed me k).asUnits := by
  cases k <;> rfl

/-- The end of the round is looked at whatever the work of the threads is. -/
lemma checkRound_asUnits {k : AfterCheck} :
    s.asUnits.checkRound me k = (s.checkRound me k).asUnits := by
  have hclose : s.asUnits.closeRound = s.closeRound.asUnits := rfl
  refine Outcome.ite_asUnits .rfl proceed_asUnits
    (requiring_asUnits (Outcome.ite_asUnits .rfl proceed_asUnits ?_))
  rw [hclose]
  exact startRound_asUnits

/-- A round is filled whatever the work of its primaries is. -/
lemma fillRound_asUnits {eligible : ThreadId → Bool} {index : Nat} {plan : RoundConfig}
    {k : AfterFill} : s.asUnits.fillRound eligible me index plan k =
      (s.fillRound eligible me index plan k).asUnits := by
  have hlist : s.asUnits.threadList = s.threadList := rfl
  refine Outcome.ite_asUnits .rfl ?_ (by cases k <;> rfl)
  rw [hlist]
  cases s.threadList[index]? with
  | none => rfl
  | some t =>
    refine withRecord_asUnits fun r => Outcome.ite_asUnits .rfl rfl ?_
    dsimp only
    split <;> rfl

/-- A lock is given up whatever the work of the threads is. -/
lemma unlock_asUnits {l : LockId} : s.asUnits.unlock me l = (s.unlock me l).asUnits := by
  refine withLock_asUnits fun lock => Outcome.ite_asUnits .rfl rfl ?_
  cases lock.queue with
  | nil => rfl
  | cons next rest => exact requiring_asUnits rfl

/-- A request is removed whatever the work of the threads is. -/
lemma unqueue_asUnits {l : LockId} {t : ThreadId} :
    s.asUnits.unqueue l t = (s.unqueue l t).asUnits :=
  Outcome.ite_asUnits .rfl rfl (withLock_asUnits fun _ => rfl)

/-- A request for a lock begins whatever the work of the threads is. -/
lemma lock_asUnits {l : LockId} : s.asUnits.lock me l = (s.lock me l).asUnits :=
  withLock_asUnits fun _ => Outcome.ite_asUnits .rfl rfl rfl

end State

/-- What a thread does does not depend on what the threads were listed for. -/
lemma Phase.step_asUnits {eligible : ThreadId → Bool} {me : ThreadId} {s : State} {ph : Phase} :
    ph.step eligible me s.asUnits = (ph.step eligible me s).asUnits := by
  cases ph with
  | enter p | enterRetirement => exact Outcome.ite_asUnits .rfl startRound_asUnits rfl
  | awaitPrimary p =>
    exact withRecord_asUnits fun r =>
      Outcome.ite_asUnits .rfl (withSlot_asUnits fun slot => attempt_asUnits) rfl
  | awaitRetirement =>
    exact withRecord_asUnits fun r =>
      Outcome.ite_asUnits .rfl (withSlot_asUnits fun slot => retire_asUnits) rfl
  | awaitRoundEnd p | awaitTurn p =>
    exact withRecord_asUnits fun r => Outcome.ite_asUnits .rfl rfl rfl
  | awaitHandOver l =>
    exact withLock_asUnits fun lock => Outcome.ite_asUnits .rfl rfl
      (withRecord_asUnits fun r => Outcome.ite_asUnits .rfl rfl rfl)
  | check k => exact checkRound_asUnits
  | fill index plan k => exact fillRound_asUnits

/-- What a call begins with does not depend on it either. -/
lemma Operation.start?_asUnits {a : Agent} {op : Operation} {s : State} :
    op.start? s.asUnits a = (op.start? s a).map Outcome.asUnits := by
  cases op with
  | submit w | fill w => rfl
  | owner l => exact congrArg some (withLock_asUnits fun _ => rfl)
  | unqueue l t => exact congrArg some unqueue_asUnits
  | turn | reconfigure r | retire => cases a <;> rfl
  | lock l =>
    cases a with
    | unit t => exact congrArg some lock_asUnits
    | client n => rfl
  | unlock l =>
    cases a with
    | unit t => exact congrArg some unlock_asUnits
    | client n => rfl

/-! ### The work that is known so far -/

/-- The work of the threads that were listed, and of the one that the client brings. -/
def System.promised (sys : System) : List Work :=
  sys.state.listings.map Prod.snd ++
    ((sys.submission? (.client 0)).bind Submission.work?).toList

/-- Following a docket, the work that was promised stays so. -/
lemma Docket.Going.promised {d : Docket} {sys sys' : System} (h : d.Going sys sys')
    (hinv : Invariant sys) (hnames : sys.config.namesWorkers = true) :
    sys.promised <+: sys'.promised := by
  have hunit : ∀ {t op o} {v : Option ThreadId}, Change sys.state v (o.state sys.state) →
      sys.promised <+: (sys.apply (.unit t) op o).promised := fun hc => by
    refine ⟨[], ?_⟩
    rw [List.append_nil, System.promised, System.promised, System.state_apply, hc.listings_eq,
      System.submission?_apply rfl, if_neg (by simp)]
  cases h with
  | call t op o hop hinside hidle halive hlocks ho =>
    exact hunit ((Operation.opening_of_start? hinv.sound hlocks ho).change (w := none))
  | stretch t op ph hinside hcall =>
    obtain ⟨-, hop, ho⟩ := hinv.stretch_of_call hcall d.eligible
    exact hunit (hinv.stretch_change hcall hop ho)
  | errand i hi hinside hidle =>
    have hnone : sys.submission? (.client 0) = none := by simp [System.submission?, hidle]
    rw [System.promised, System.promised, System.state_apply, hnone]
    simp [Outcome.state]
  | intake op p hinside hcall =>
    have hbefore := Submitters.submission?_of_call hcall
    have ho := hinv.intake_of_call hcall
    generalize p.step sys.config sys.state = o at ho
    rw [System.promised, System.promised, System.state_apply, hbefore,
      System.submission?_apply hcall, if_pos rfl]
    cases ho with
    | unnamed _ _ _ hunnamed => simp [hnames] at hunnamed
    | lacking | sufficient => simp [Outcome.state, Submission.work?]
    | blocked | passed | sleepForAdmission | admitted => exact List.prefix_rfl
    | listed | listedToCount | listedWithMore | listedLast =>
      simp [Outcome.state, listings_list, Submission.work?]
  | enter a hinside hcall => exact List.prefix_rfl

/-- Whoever the client brings does what was promised. -/
lemma System.getElem?_of_promised {sys : System} {op : Operation} {p : Submission} {w : Work}
    {ws : List Work} (hcall : sys.calls.get? (.client 0) = some ⟨op, .submission p⟩)
    (hw : p.work? = some w) (h : sys.promised <+: ws) :
    ws[sys.state.listings.length]? = some w := by
  obtain ⟨rest, rfl⟩ := h
  simp [System.promised, Submitters.submission?_of_call hcall, hw]

/-! ### Following an agenda instead -/

/-- The agenda with units that do some works. -/
def Docket.agenda (d : Docket) (ws : List Work) : Agenda :=
  { config := d.config, eligible := d.eligible, locks := d.locks, units := ws.map d.routine }

/-- Where the client stands if it submits the unit of its number. -/
def Call.asUnit? : Call → Option Call
  | ⟨_, .submission (.awaitAdmission t _ _)⟩ =>
    some ⟨.submit (.scripted t.raw), .submission (.awaitAdmission t (.scripted t.raw) .answer)⟩
  | ⟨_, .submission (.list t _ _)⟩ =>
    some ⟨.submit (.scripted t.raw), .submission (.list t (.scripted t.raw) .answer)⟩
  | _ => none

/-- A system is like one that follows the docket, but in it the client submits every thread as a
unit of the agenda. It begins to do so when it takes the number. -/
structure Mimics (d : Docket) (ws : List Work) (sys mime : System) : Prop where
  config : mime.config = sys.config
  state : mime.state = sys.state.asUnits
  units : ∀ t, mime.calls.get? (.unit t) = sys.calls.get? (.unit t)
  client : mime.calls.get? (.client 0) = (sys.calls.get? (.client 0)).bind Call.asUnit?
  inside : mime.inside = sys.inside.filter fun a => (mime.calls.get? a).isSome
  todo : ∀ t, (d.agenda ws).todo t mime.returns = d.todo sys t
  submissions : Agenda.submissions mime.returns = sys.state.listings.length

namespace Mimics

variable {d : Docket} {ws : List Work} {sys sys' mime : System} {t : ThreadId} {op : Operation}
  {o : Outcome}

/-- What a unit has left to do stays what the docket says if the others act. -/
lemma todo_apply_unit {u : ThreadId}
    (hlistings : (o.state sys.state).listings = sys.state.listings)
    (h : (d.agenda ws).todo u mime.returns = d.todo sys u) :
    (d.agenda ws).todo u (mime.apply (.unit t) op o.asUnits).returns =
      d.todo (sys.apply (.unit t) op o) u := by
  have hlookup : (sys.apply (.unit t) op o).state.listings = sys.state.listings := by
    rw [System.state_apply, hlistings]
  unfold Docket.todo at h ⊢
  rw [hlookup]
  cases o with
  | reply s' r =>
    have hcons : (d.agenda ws).todo u (⟨.unit t, op, r⟩ :: mime.returns) =
        if Agent.unit t = .unit u then ((d.agenda ws).todo u mime.returns).after r.verdict
        else (d.agenda ws).todo u mime.returns := rfl
    exact hcons.trans (by rw [h]; rfl)
  | _ => exact h

/-- What a thread does is done by the thread of the other system. -/
lemma apply_unit {v : Option ThreadId} (h : Mimics d ws sys mime)
    (hc : Change sys.state v (o.state sys.state)) :
    Mimics d ws (sys.apply (.unit t) op o) (mime.apply (.unit t) op o.asUnits) where
  config := by rw [System.config_apply, System.config_apply, h.config]
  state := by
    rw [System.state_apply, System.state_apply, h.state]
    cases o <;> rfl
  units u := by
    rw [System.get?_calls_apply, System.get?_calls_apply, h.units, h.units]
    cases o <;> rfl
  client := by
    rw [System.get?_calls_apply, System.get?_calls_apply, if_neg (by simp), if_neg (by simp),
      h.client]
  inside := by
    cases o with
    | goto s' point | pause s' point =>
      simp [Outcome.asUnits, Outcome.inside?, System.get?_calls_apply, Outcome.call?,
        Option.filter]
    | _ => rfl
  todo u := todo_apply_unit hc.listings_eq (h.todo u)
  submissions := by
    rw [System.returns_apply, Shadow.submissions_append_of_unit, System.state_apply,
      hc.listings_eq, h.submissions]

/-- What the client does besides listing threads is mimicked if the other client stands at the
corresponding place. -/
lemma apply_client {mime' : System} (h : Mimics d ws sys mime)
    (hlistings : (o.state sys.state).listings = sys.state.listings)
    (hconfig : mime'.config = mime.config) (hstate : mime'.state = (o.state sys.state).asUnits)
    (hunits : ∀ t, mime'.calls.get? (.unit t) = mime.calls.get? (.unit t))
    (hclient : mime'.calls.get? (.client 0) =
      (o.call? (sys.calls.get? (.client 0)) op).bind Call.asUnit?)
    (hinside : mime'.inside =
      (o.inside? (.client 0)).filter fun a => (mime'.calls.get? a).isSome)
    (hreturns : mime'.returns = mime.returns) :
    Mimics d ws (sys.apply (.client 0) op o) mime' where
  config := by rw [hconfig, System.config_apply, h.config]
  state := by rw [hstate, System.state_apply]
  units t := by rw [hunits, System.get?_calls_apply, if_neg (by simp), h.units]
  client := by rw [hclient, System.get?_calls_apply, if_pos rfl]
  inside := by rw [hinside, System.inside_apply]
  todo t := by
    have htodo : d.todo (sys.apply (.client 0) op o) t = d.todo sys t := by
      unfold Docket.todo
      rw [System.state_apply, hlistings, System.returns_apply]
      cases o <;> rfl
    rw [hreturns, h.todo, htodo]
  submissions := by rw [hreturns, h.submissions, System.state_apply, hlistings]

/-- As long as the other client is not at work, nothing is to be done. -/
lemma stays (h : Mimics d ws sys mime) (hidle : mime.calls.get? (.client 0) = none)
    (houtside : mime.inside = none) (hstate : o.state sys.state = sys.state)
    (hcall : (o.call? (sys.calls.get? (.client 0)) op).bind Call.asUnit? = none) :
    Mimics d ws (sys.apply (.client 0) op o) mime := by
  refine h.apply_client (by rw [hstate]) rfl (by rw [hstate, h.state]) (fun _ => rfl)
    (hidle.trans hcall.symm) ?_ rfl
  cases o <;> simp [houtside, Outcome.inside?, Option.filter, hidle]

/-- Both clients go to the corresponding place. -/
lemma client_goto {s' : State} {point point' : Point} {op' : Operation} {m : System}
    (h : Mimics d ws sys mime) (hlistings : s'.listings = sys.state.listings)
    (hconfig : m.config = mime.config)
    (hunits : ∀ t, m.calls.get? (.unit t) = mime.calls.get? (.unit t))
    (hreturns : m.returns = mime.returns)
    (hcall : Call.asUnit? ⟨op, point⟩ = some ⟨op', point'⟩) :
    Mimics d ws (sys.apply (.client 0) op (.goto s' point))
      (m.apply (.client 0) op' (.goto s'.asUnits point')) := by
  refine h.apply_client hlistings hconfig rfl (fun t => ?_) ?_ ?_ hreturns
  · rw [System.get?_calls_apply, if_neg (by simp), hunits]
  · rw [System.get?_calls_apply, if_pos rfl]
    exact hcall.symm
  · simp [Outcome.inside?, Option.filter, System.get?_calls_apply, Outcome.call?]

/-- What a thread still has to do after the latest listing. -/
lemma todo_list {n : Nat} {w : Work} (h : Mimics d ws sys mime)
    (hstate : o.state sys.state = sys.state.list ⟨n⟩ w) (hw : ws[n]? = some w)
    (hfresh : sys.state.listings.lookup ⟨n⟩ = none)
    (hquiet : ∀ r ∈ sys.returns, r.agent ≠ .unit ⟨n⟩) :
    (d.agenda ws).todo t
        (⟨.client 0, .submit (.scripted n), .thread ⟨n⟩⟩ :: mime.returns) =
      d.todo (sys.apply (.client 0) op o) t := by
  have hlistings : (sys.apply (.client 0) op o).state.listings =
      sys.state.listings ++ [(⟨n⟩, w)] := by
    rw [System.state_apply, hstate, listings_list]
  have hothers : ∀ r ∈ o.returns (.client 0) op, r.agent ≠ .unit t := fun r hr => by
    cases o with
    | reply s' reply =>
      cases List.mem_singleton.mp hr
      simp
    | _ => cases hr
  unfold Docket.todo
  rw [hlistings, System.returns_apply, Routine.afterReturns_append_of_ne hothers,
    List.lookup_append]
  by_cases hnt : (⟨n⟩ : ThreadId) = t
  · subst hnt
    have hleft : Routine.afterReturns ⟨n⟩ (d.routine w) (sys.returns ++ []) = d.routine w :=
      Routine.afterReturns_append_of_ne hquiet
    rw [List.append_nil] at hleft
    rw [hfresh]
    simp [Agenda.todo, Return.unit?, Agenda.routine, Docket.agenda, hw, hleft]
  · have hlookup : [((⟨n⟩ : ThreadId), w)].lookup t = none := by
      simp [Ne.symm hnt]
    rw [hlookup, Option.or_none, ← Docket.todo, ← h.todo]
    simp [Agenda.todo, Return.unit?, hnt]

/-- Both clients list the thread. -/
lemma client_lists {n : Nat} {w : Work} (h : Mimics d ws sys mime) (hw : ws[n]? = some w)
    (hfresh : sys.state.listings.lookup ⟨n⟩ = none)
    (hquiet : ∀ r ∈ sys.returns, r.agent ≠ .unit ⟨n⟩)
    (hstate : o.state sys.state = sys.state.list ⟨n⟩ w)
    (hcall : (o.call? (sys.calls.get? (.client 0)) op).bind Call.asUnit? = none)
    (hinside : o.inside? (.client 0) = none) :
    Mimics d ws (sys.apply (.client 0) op o) (mime.apply (.client 0) (.submit (.scripted n))
      (.reply (mime.state.list ⟨n⟩ (.scripted n)) (.thread ⟨n⟩))) where
  config := by rw [System.config_apply, System.config_apply, h.config]
  state := by
    rw [System.state_apply, System.state_apply, hstate, h.state]
    rfl
  units t := by
    rw [System.get?_calls_apply, System.get?_calls_apply, if_neg (by simp), if_neg (by simp),
      h.units]
  client := by
    rw [System.get?_calls_apply, System.get?_calls_apply, if_pos rfl, if_pos rfl, hcall]
    rfl
  inside := by
    rw [System.inside_apply, System.inside_apply, hinside]
    rfl
  todo t := h.todo_list hstate hw hfresh hquiet
  submissions := by
    rw [System.state_apply, hstate, listings_list, List.length_append, ← h.submissions]
    simp [Outcome.returns, Agenda.submissions]

/-! ### What the other client does -/

variable {n : Nat} {p : Submission} {k : AfterListing} {w : Work}

/-- The client inside the critical section goes one place further. -/
lemma goes {m : System} (hinside : m.inside = some (.client 0))
    (hcall : m.calls.get? (.client 0) = some ⟨op, .submission p⟩) :
    (d.agenda ws).Step m (m.apply (.client 0) op (p.step m.config m.state)) :=
  ⟨.advance, rfl, by simp [System.move?, hinside, hcall, System.outcome, Point.step]⟩

/-- The client takes a number for the next unit. -/
lemma begins {m : System} (hinside : m.inside = none) (hidle : m.calls.get? (.client 0) = none)
    (hn : Agenda.submissions m.returns = n) (hlt : n < ws.length) :
    Relation.ReflTransGen (d.agenda ws).Step m
      ((m.apply (.client 0) (.submit (.scripted n))
          (.goto m.state (.submission (.enrol (.scripted n) .answer)))).apply (.client 0)
        (.submit (.scripted n))
        ((Submission.enrol (.scripted n) .answer).step m.config m.state)) := by
  refine .head ⟨.call (.client 0) (.submit (.scripted n)), ?_, ?_⟩ (.single (goes rfl ?_))
  · simp [Agenda.permits, Agenda.next?, Docket.agenda, hn, hlt]
  · simp [System.move?, hinside, hidle, System.isAlive, Operation.locks, Operation.start?]
  · simp [System.get?_calls_apply, Outcome.call?]

/-- The client takes a number. -/
lemma enrol (h : Mimics d ws sys mime) (hinside : sys.inside = some (.client 0))
    (hcall : sys.calls.get? (.client 0) = some ⟨op, .submission (.enrol w k)⟩)
    (hn : sys.state.listings.length = n) (hnext : sys.state.nextThread = ⟨n⟩)
    (hlt : n < ws.length) (ho : Intake sys.config sys.state (.enrol w k) o) :
    ∃ mime', Relation.ReflTransGen (d.agenda ws).Step mime mime' ∧
      Mimics d ws (sys.apply (.client 0) op o) mime' := by
  have hidle : mime.calls.get? (.client 0) = none := by rw [h.client, hcall]; rfl
  have houtside : mime.inside = none := by simp [h.inside, hinside, Option.filter, hidle]
  refine ⟨_, begins houtside hidle (h.submissions.trans hn) hlt, ?_⟩
  have hunits : ∀ t, (mime.apply (.client 0) (.submit (.scripted n)) (.goto mime.state
      (.submission (.enrol (.scripted n) .answer)))).calls.get? (.unit t) =
      mime.calls.get? (.unit t) := fun t => by
    rw [System.get?_calls_apply, if_neg (by simp)]
  have hfull : mime.state.enrol.isFull mime.config = sys.state.isFull sys.config := by
    rw [h.state, h.config]
    rfl
  have hthread : mime.state.nextThread = ⟨n⟩ := by
    rw [h.state]
    exact hnext
  simp only [Submission.step, hfull, hthread]
  cases ho with
  | blocked _ _ hb =>
    rw [if_pos hb, h.state, hnext]
    exact h.client_goto rfl rfl hunits rfl rfl
  | passed _ _ hb =>
    rw [if_neg (by simp [hb]), h.state, hnext]
    exact h.client_goto rfl rfl hunits rfl rfl

/-- The client waits for admission. -/
lemma wait (h : Mimics d ws sys mime) (hinside : sys.inside = some (.client 0))
    (hcall : sys.calls.get? (.client 0) = some ⟨op, .submission (.awaitAdmission t w k)⟩)
    (ho : Intake sys.config sys.state (.awaitAdmission t w k) o) :
    ∃ mime', (d.agenda ws).Step mime mime' ∧
      Mimics d ws (sys.apply (.client 0) op o) mime' := by
  have hcall' : mime.calls.get? (.client 0) = some ⟨.submit (.scripted t.raw),
      .submission (.awaitAdmission t (.scripted t.raw) .answer)⟩ := by
    rw [h.client, hcall]
    rfl
  have hinside' : mime.inside = some (.client 0) := by
    simp [h.inside, hinside, Option.filter, hcall']
  refine ⟨_, goes hinside' hcall', ?_⟩
  have hrecord : mime.state.record? t = sys.state.record? t := by
    rw [h.state]
    rfl
  simp only [Submission.step, withRecord, hrecord]
  cases ho with
  | sleepForAdmission _ _ _ r hr hadmitted =>
    simp only [hr, hadmitted]
    refine h.apply_client rfl rfl h.state (fun _ => rfl) ?_ rfl rfl
    rw [Outcome.call?, ← h.client]
    rfl
  | admitted _ _ _ r hr hadmitted =>
    simp only [hr, hadmitted, if_true]
    rw [h.state]
    exact h.client_goto rfl rfl (fun _ => rfl) rfl rfl

/-- The client lists the next thread. -/
lemma list (h : Mimics d ws sys mime) (hinside : sys.inside = some (.client 0))
    (hnames : sys.config.namesWorkers = true)
    (hcall : sys.calls.get? (.client 0) = some ⟨op, .submission (.list ⟨n⟩ w k)⟩)
    (hrecorded : (sys.state.record? ⟨n⟩).isSome) (hw : ws[n]? = some w)
    (hfresh : sys.state.listings.lookup ⟨n⟩ = none)
    (hquiet : ∀ r ∈ sys.returns, r.agent ≠ .unit ⟨n⟩)
    (ho : Intake sys.config sys.state (.list ⟨n⟩ w k) o) :
    ∃ mime', (d.agenda ws).Step mime mime' ∧
      Mimics d ws (sys.apply (.client 0) op o) mime' := by
  have hcall' : mime.calls.get? (.client 0) = some ⟨.submit (.scripted n),
      .submission (.list ⟨n⟩ (.scripted n) .answer)⟩ := by
    rw [h.client, hcall]
    rfl
  have hinside' : mime.inside = some (.client 0) := by
    simp [h.inside, hinside, Option.filter, hcall']
  have hstep : (Submission.list ⟨n⟩ (.scripted n) .answer).step mime.config mime.state =
      .reply (mime.state.list ⟨n⟩ (.scripted n)) (.thread ⟨n⟩) := by
    have hall : ∀ u ∈ [(⟨n⟩ : ThreadId)], (mime.state.record? u).isSome := by
      rw [h.state]
      exact List.forall_mem_singleton.mpr hrecorded
    simp only [Submission.step, h.config, hnames, if_true, requiring_eq hall]
    rfl
  refine ⟨_, goes hinside' hcall', ?_⟩
  rw [hstep]
  cases ho with
  | unnamed _ _ _ hunnamed => simp [hnames] at hunnamed
  | listed | listedToCount | listedWithMore | listedLast =>
    exact h.client_lists hw hfresh hquiet rfl rfl rfl

/-- Whatever the client does is mimicked, as long as the agenda has the work that it brings. -/
lemma intake (h : Mimics d ws sys mime) {counts : List Count} (hserves : d.Serves counts sys)
    (hinv : Invariant sys) (hnames : sys.config.namesWorkers = true)
    (hinside : sys.inside = some (.client 0))
    (hcall : sys.calls.get? (.client 0) = some ⟨op, .submission p⟩)
    (hpromised : sys.promised <+: ws) (ho : Intake sys.config sys.state p o) :
    ∃ mime', Relation.ReflTransGen (d.agenda ws).Step mime mime' ∧
      Mimics d ws (sys.apply (.client 0) op o) mime' := by
  obtain ⟨ws', hws, hserving⟩ := hserves.serving
  obtain ⟨next, hnext⟩ : ∃ next, sys.state.nextThread.raw = next := ⟨_, rfl⟩
  have hlength : sys.state.listings.length = ws'.length := by simp [hws, Docket.enlist]
  have hwork : ∀ w, p.work? = some w → ws[ws'.length]? = some w := fun w hw =>
    hlength ▸ System.getElem?_of_promised hcall hw hpromised
  rw [hcall, hnext] at hserving
  cases hserving with
  | enrol _ w k howes =>
    have hlt : ws'.length < ws.length := (List.getElem?_eq_some_iff.mp (hwork w rfl)).1
    exact h.enrol hinside hcall hlength (by rw [← hnext]) hlt ho
  | wait _ w k howes =>
    obtain ⟨mime', hstep, hmimics⟩ := h.wait hinside hcall ho
    exact ⟨mime', .single hstep, hmimics⟩
  | list _ w k howes =>
    have hfresh : sys.state.listings.lookup ⟨ws'.length⟩ = none := by
      rw [hws, Docket.lookup_enlist]
      simp
    have hquiet : ∀ r ∈ sys.returns, r.agent ≠ .unit ⟨ws'.length⟩ := fun r hr hagent =>
      absurd (hserves.quiet r hr _ hagent) (by simp [hlength])
    have hrecorded := hinv.isSome_of_submission (Submitters.submission?_of_call hcall) rfl
    obtain ⟨mime', hstep, hmimics⟩ :=
      h.list hinside hnames hcall hrecorded (hwork w rfl) hfresh hquiet ho
    exact ⟨mime', .single hstep, hmimics⟩
  | count hfills =>
    have hidle : mime.calls.get? (.client 0) = none := by rw [h.client, hcall]; rfl
    have houtside : mime.inside = none := by simp [h.inside, hinside, Option.filter, hidle]
    refine ⟨mime, .refl, ?_⟩
    cases ho <;> exact h.stays hidle houtside rfl rfl

/-- A call of a thread is possible in the other system too. -/
lemma call (h : Mimics d ws sys mime) (hinside : sys.inside = none)
    (hidle : sys.calls.get? (.unit t) = none) (halive : sys.isAlive (.unit t) = true)
    (hlocks : ∀ l ∈ op.locks, (sys.state.lock? l).isSome) (hop : op = (d.todo sys t).operation)
    (ho : op.start? sys.state (.unit t) = some o) :
    (d.agenda ws).Step mime (mime.apply (.unit t) op o.asUnits) := by
  have hinside' : mime.inside = none := by simp [h.inside, hinside]
  have hidle' : mime.calls.get? (.unit t) = none := by rw [h.units, hidle]
  have halive' : mime.isAlive (.unit t) = true := by
    unfold System.isAlive
    rw [h.state]
    exact halive
  have hlocks' : ∀ l ∈ op.locks, sys.state.asUnits.locks.contains l = true := hlocks
  refine ⟨.call (.unit t) op, ?_, ?_⟩
  · simp [Agenda.permits, Agenda.next?, h.todo, hop]
  · simpa [System.move?, hinside', hidle', halive', h.state, Operation.start?_asUnits, ho] using
      hlocks'

/-- Every step that follows the docket is mimicked. -/
theorem step (h : Mimics d ws sys mime) {counts : List Count}
    (hserves : d.Serves counts sys) (hinv : Invariant sys)
    (hnames : sys.config.namesWorkers = true) (hpromised : sys.promised <+: ws)
    (hstep : d.Step sys sys') :
    ∃ mime', Relation.ReflTransGen (d.agenda ws).Step mime mime' ∧ Mimics d ws sys' mime' := by
  cases hserves.going hinv hstep with
  | call t op o hop hinside hidle halive hlocks ho =>
    exact ⟨_, .single (h.call hinside hidle halive hlocks hop ho), h.apply_unit
      ((Operation.opening_of_start? hinv.sound hlocks ho).change (w := none))⟩
  | stretch t op ph hinside hcall =>
    obtain ⟨-, hop, ho⟩ := hinv.stretch_of_call hcall d.eligible
    have hcall' : mime.calls.get? (.unit t) = some ⟨op, .thread t ph⟩ := (h.units t).trans hcall
    have hinside' : mime.inside = some (.unit t) := by
      simp [h.inside, hinside, Option.filter, hcall']
    refine ⟨_, .single ⟨.advance, rfl, ?_⟩, h.apply_unit (hinv.stretch_change hcall hop ho)⟩
    simp [System.move?, hinside', hcall', System.outcome, Point.step, h.state, Docket.agenda,
      Phase.step_asUnits]
  | errand i hi hinside hidle =>
    have hidle' : mime.calls.get? (.client 0) = none := by rw [h.client, hidle]; rfl
    exact ⟨mime, .refl, h.stays hidle' (by simp [h.inside, hinside]) rfl rfl⟩
  | intake op p hinside hcall =>
    exact h.intake hserves hinv hnames hinside hcall hpromised (hinv.intake_of_call hcall)
  | enter a hinside hcall =>
    have hinside' : mime.inside = none := by simp [h.inside, hinside]
    cases hcall' : mime.calls.get? a with
    | none =>
      refine ⟨mime, .refl, h.config, h.state, h.units, h.client, ?_, h.todo, h.submissions⟩
      simp [hinside', Option.filter, hcall']
    | some call =>
      refine ⟨{ mime with inside := some a }, .single ⟨.enter a, rfl, ?_⟩, h.config, h.state,
        h.units, h.client, ?_, h.todo, h.submissions⟩
      · simp [System.move?, hinside', hcall']
      · simp [Option.filter, hcall']

end Mimics

end RoundScheduler
