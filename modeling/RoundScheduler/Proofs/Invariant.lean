import RoundScheduler.Proofs.Fillers
import RoundScheduler.Proofs.State.Events
import RoundScheduler.Proofs.Submitters

/-!
# The invariant of reachable systems

The agreements of the other files together are kept by every move, so they hold of every system
that can be reached. Along the way every move is shown to be one of the listed transitions and to
make one of the listed changes. At the end stands what a move is to the rounds: it begins one, it is
part of a fill, or it leaves the round and whoever fills it alone.
-/

namespace RoundScheduler

open State

/-- What holds of every system that can be reached. -/
structure Invariant (sys : System) : Prop where
  /-- The state does not contradict itself. -/
  sound : sys.state.Sound
  /-- It agrees with the place of every agent. -/
  placed : ∀ a, Placed sys.state a (sys.calls.get? a)
  /-- Whoever is inside the critical section is in an operation. -/
  inside : ∀ a, sys.inside = some a → (sys.calls.get? a).isSome
  submitters : Submitters sys
  fillers : Fillers sys
  watched : Watched sys

namespace Invariant

variable {c : Config} {sys sys' : System} {a : Agent} {t : ThreadId}

/-! ### The first system -/

/-- A scheduler that nobody used yet has the configuration it was built with, and nothing else. -/
lemma eq_of_initial (h : System.initial c = .ok sys) :
    ∃ rounds, RoundConfig.roundRobin c.primaries c.stepsPerPrimary = .ok rounds ∧
      sys = { config := c, state := { live := rounds, staged := rounds } } := by
  unfold System.initial State.initial at h
  cases hrounds : RoundConfig.roundRobin c.primaries c.stepsPerPrimary with
  | error e => rw [hrounds] at h; cases h
  | ok rounds =>
    rw [hrounds] at h
    cases h
    exact ⟨rounds, rfl, rfl⟩

lemma exists_rounds_of_initial (h : System.initial c = .ok sys) :
    ∃ rounds : RoundConfig, rounds.IsRoundRobin ∧
      sys = { config := c, state := { live := rounds, staged := rounds } } := by
  obtain ⟨rounds, hrounds, hsys⟩ := eq_of_initial h
  exact ⟨rounds, RoundConfig.isRoundRobin_of_roundRobin hrounds, hsys⟩

/-- A state without threads and locks is sound. -/
lemma sound_initial {rounds : RoundConfig} (h : rounds.IsRoundRobin) :
    State.Sound { live := rounds, staged := rounds } where
  roster := ⟨List.nodup_nil, List.nodup_nil, fun t => by simp [started?, record?], nofun, nofun⟩
  seating := ⟨List.nodup_nil, fun t => by simp [record?], nofun, Nat.zero_le _, h.bounded, h.1, h,
    nofun, fun _ => rfl⟩
  queues := ⟨fun t l => by simp [linkOf?, record?, lock?], nofun, nofun, nofun, nofun⟩

/-- The invariant holds of a scheduler that nobody used yet. -/
theorem initial (h : System.initial c = .ok sys) : Invariant sys := by
  obtain ⟨rounds, hrobin, rfl⟩ := exists_rounds_of_initial h
  constructor
  case sound => exact sound_initial hrobin
  case placed =>
    intro a
    cases a with
    | unit t => exact .idle t (Unflagged.poised ⟨rfl, rfl, rfl⟩ nofun)
    | client n => exact .outside n
  case inside => intro a ha; cases ha
  case submitters =>
    exact ⟨fun a p t ha => (by cases ha), fun a b p q t ha => (by cases ha),
      fun t ht => (by cases ht)⟩
  case fillers =>
    exact ⟨fun a i p ha => (by cases ha), fun hround => absurd rfl hround,
      fun a b ha => (by cases ha)⟩
  case watched => exact fun hfull => absurd hfull (Nat.not_le.mpr hrobin.1)

/-! ### Moves are transitions -/

/-- What comes next at the place of a thread is one of the listed stretches. -/
lemma stretch_of_call (h : Invariant sys) {op : Operation} {ph : Phase}
    (hcall : sys.calls.get? a = some ⟨op, .thread t ph⟩) (eligible : ThreadId → Bool) :
    a = .unit t ∧ op = ph.operation ∧
      Stretch eligible sys.state t ph (ph.step eligible t sys.state) := by
  obtain ⟨rfl, hop, -, halive, hlocks⟩ := (hcall ▸ h.placed a).of_thread
  have hme : ph.leaving = false → (sys.state.record? t).isSome := fun hph => by
    obtain ⟨r, hr, -⟩ := exists_record_of_isAlive (halive hph)
    simp [hr]
  exact ⟨rfl, hop, Phase.stretch_step h.sound hme hlocks⟩

/-- The thread that a submitter brings has a record. -/
lemma isSome_of_submission (h : Invariant sys) {p : Submission} (hp : sys.submission? a = some p)
    (ht : p.thread? = some t) : (sys.state.record? t).isSome := by
  rw [isSome_record?_iff, h.submitters.unstarted a p t hp ht]
  rfl

/-- What comes next at the place of a submitter is one of the listed possibilities. -/
lemma intake_of_call (h : Invariant sys) {op : Operation} {p : Submission}
    (hcall : sys.calls.get? a = some ⟨op, .submission p⟩) :
    Intake sys.config sys.state p (p.step sys.config sys.state) := by
  have hp : sys.submission? a = some p := by simp [System.submission?, hcall, Point.submission?]
  exact Submission.intake_step h.sound fun _ => h.isSome_of_submission hp

/-- Every move of a system with the invariant is one of the listed transitions. -/
theorem transition (h : Invariant sys) {eligible : ThreadId → Bool} {m : Move}
    (hm : sys.move? eligible m = some sys') : System.Transition eligible sys m sys' := by
  cases m with
  | call a op =>
    obtain ⟨⟨⟨⟨hinside, hidle⟩, halive⟩, hlocks⟩, o, ho, rfl⟩ :=
      System.move?_call_eq_some_iff.mp hm
    exact .call a op o hinside hidle halive hlocks (Operation.opening_of_start? h.sound hlocks ho)
  | advance =>
    cases hinside : sys.inside with
    | none => simp [System.move?, hinside] at hm
    | some a =>
      simp only [System.move?, hinside] at hm
      obtain ⟨⟨op, point⟩, hcall, rfl⟩ := Option.map_eq_some_iff.mp hm
      cases point with
      | thread t ph =>
        obtain ⟨rfl, hop, hstretch⟩ := h.stretch_of_call hcall eligible
        exact .stretch t op ph _ hinside hcall hop hstretch
      | submission p => exact .intake a op p _ hinside hcall (h.intake_of_call hcall)
  | enter a =>
    obtain ⟨⟨hinside, hcall⟩, rfl⟩ := System.move?_enter_eq_some_iff.mp hm
    obtain ⟨call, hcall⟩ := Option.isSome_iff_exists.mp hcall
    exact .enter a call hinside hcall
  | newLock =>
    obtain ⟨hinside, rfl⟩ := System.move?_newLock_eq_some_iff.mp hm
    exact .newLock hinside
  | dropLock l =>
    obtain ⟨⟨⟨hinside, hl⟩, huses⟩, rfl⟩ := System.move?_dropLock_eq_some_iff.mp hm
    refine .dropLock l hinside hl fun a call hcall hmem => ?_
    have hused : sys.uses l = true := List.any_eq_true.mpr
      ⟨(a, call), Table.mem_entries_of_get?_eq_some hcall, by simpa using hmem⟩
    exact absurd hused (by simp [huses])

/-! ### Transitions keep the invariant -/

/-- Whoever is inside the critical section after an outcome is in an operation. -/
lemma inside_apply_isSome {op : Operation} {o : Outcome} {b : Agent}
    (hb : (sys.apply a op o).inside = some b) : ((sys.apply a op o).calls.get? b).isSome := by
  rw [System.inside_apply] at hb
  rw [System.get?_calls_apply]
  cases o with
  | goto s p =>
    cases hb
    simp [Outcome.call?]
  | _ => cases hb

/-- What others do keeps the agreement of the state with the call of an agent. -/
lemma placed_apply (h : Invariant sys) {op : Operation} {o : Outcome}
    (hcalm : ∀ u, a.thread? ≠ some u → Calm sys.state (o.state sys.state) u)
    (hlocks : ∀ l, ((o.state sys.state).lock? l).isSome = (sys.state.lock? l).isSome)
    (hown : Placed (o.state sys.state) a (o.call? (sys.calls.get? a) op)) (b : Agent) :
    Placed (sys.apply a op o).state b ((sys.apply a op o).calls.get? b) := by
  rw [System.state_apply, System.get?_calls_apply]
  split
  · next hb => exact hb ▸ hown
  · next hb =>
    refine (h.placed b).calm (fun u hu => hcalm u fun ha => hb ?_) fun _ _ l _ hl =>
      (hlocks l).trans hl
    cases a <;> cases b <;> simp_all [Agent.thread?]

/-- The call of an operation keeps the invariant. -/
lemma call (h : Invariant sys) {op : Operation} {o : Outcome} (hinside : sys.inside = none)
    (hidle : sys.calls.get? a = none) (halive : sys.isAlive a = true)
    (hlocks : ∀ l ∈ op.locks, (sys.state.lock? l).isSome) (ho : Opening sys.state a op o) :
    Invariant (sys.apply a op o) := by
  have hchange : Change sys.state none (o.state sys.state) := ho.change
  have hcalm : ∀ u, Calm sys.state (o.state sys.state) u := fun u => hchange.calm h.sound nofun
  have hsettled : Settled sys.state (o.state sys.state) := by
    cases ho <;> exact ⟨rfl, rfl, rfl, List.prefix_rfl⟩
  constructor
  case sound => rw [System.state_apply]; exact hchange.sound h.sound
  case placed =>
    refine h.placed_apply (fun u _ => hcalm u) ho.lock?_isSome ?_
    rw [hidle]
    refine ho.placed h.sound (hidle ▸ h.placed a) (fun t ht => ?_) hlocks
    rw [ht] at halive
    exact halive
  case inside => exact fun b => inside_apply_isSome
  case submitters =>
    refine h.submitters.keep (by simpa using hchange.patient h.sound) (fun b p t hb hp => ?_)
      fun b t w k hb => ?_
    · rw [System.submission?_apply hidle] at hb
      split at hb
      · cases ho <;> cases hb <;> cases hp
      · exact hb
    · rw [System.submission?_apply hidle]
      split
      · next hba => simp [System.submission?, hba, hidle] at hb
      · exact hb
  case fillers =>
    refine h.fillers.keep (by simpa using hsettled) (fun b => ?_) fun b _ hb => ?_
    · rw [System.fill?, System.phase?_apply hidle]
      split
      · next hba =>
        rw [hba, System.fill?, System.phase?, hidle]
        cases ho <;> rfl
      · rfl
    · cases hb.symm.trans hinside
  case watched =>
    exact h.watched.keep (fun b _ hb => by cases hb.symm.trans hinside) (by simpa using hsettled)
      fun u hu => by simpa using (hcalm u).canProgress hu

/-- What a thread does at its place is one of the listed changes. -/
lemma stretch_change (h : Invariant sys) {op : Operation} {ph : Phase} {eligible : ThreadId → Bool}
    {o : Outcome} (hcall : sys.calls.get? (.unit t) = some ⟨op, .thread t ph⟩)
    (hop : op = ph.operation) (ho : Stretch eligible sys.state t ph o) :
    Change sys.state (some t) (o.state sys.state) := by
  refine ho.change h.sound (hop ▸ hcall ▸ h.placed (.unit t)) fun index plan k hph => ?_
  have hfill : sys.fill? (.unit t) = some (index, plan) := by
    simp [System.fill?, System.phase?, hcall, hph, Point.phase?, Phase.fill?]
  exact (h.fillers.filling (.unit t) index plan hfill).1

/-- What a submitter does at its place is an arrival or nothing. -/
lemma intake_arrival (h : Invariant sys) {op : Operation} {p : Submission} {o : Outcome}
    (hcall : sys.calls.get? a = some ⟨op, .submission p⟩)
    (ho : Intake sys.config sys.state p o) :
    o.state sys.state = sys.state ∨ Arrival sys.state (o.state sys.state) := by
  have hsubmission : sys.submission? a = some p := by
    simp [System.submission?, hcall, Point.submission?]
  exact ho.arrival (h.submitters.unstarted a p · hsubmission) fun t w k hp =>
    h.submitters.not_mem_queue (hp ▸ hsubmission)

/-- What a thread does keeps the invariant. -/
lemma stretch (h : Invariant sys) {op : Operation} {ph : Phase} {eligible : ThreadId → Bool}
    {o : Outcome} (hinside : sys.inside = some (.unit t))
    (hcall : sys.calls.get? (.unit t) = some ⟨op, .thread t ph⟩) (hop : op = ph.operation)
    (ho : Stretch eligible sys.state t ph o) : Invariant (sys.apply (.unit t) op o) := by
  have hplaced := hcall ▸ h.placed (.unit t)
  have hchange := h.stretch_change hcall hop ho
  constructor
  case sound => rw [System.state_apply]; exact hchange.sound h.sound
  case placed =>
    refine h.placed_apply (fun u hu => hchange.calm h.sound hu) ho.lock?_isSome ?_
    rw [hcall]
    subst hop
    exact ho.placed h.sound hplaced
  case inside => exact fun b => inside_apply_isSome
  case submitters =>
    refine h.submitters.keep (by simpa using hchange.patient h.sound) (fun b p t' hb hp => ?_)
      fun b t' w k hb => ?_
    · rw [System.submission?_apply hcall] at hb
      split at hb
      · cases ho <;> cases hb
      · exact hb
    · rw [System.submission?_apply hcall]
      split
      · next hba => simp [System.submission?, hba, hcall, Point.submission?] at hb
      · exact hb
  case fillers => exact h.fillers.stretch hinside hcall ho
  case watched => exact h.watched.stretch h.fillers h.sound hinside hcall ho

/-- What a submitter does keeps the invariant. -/
lemma intake (h : Invariant sys) {op : Operation} {p : Submission} {o : Outcome}
    (hinside : sys.inside = some a) (hcall : sys.calls.get? a = some ⟨op, .submission p⟩)
    (ho : Intake sys.config sys.state p o) : Invariant (sys.apply a op o) := by
  have harrival := h.intake_arrival hcall ho
  have hsound : (o.state sys.state).Sound := by
    rcases harrival with heq | harrival
    · exact heq.symm ▸ h.sound
    · exact harrival.sound h.sound
  have hcalm : ∀ u, Calm sys.state (o.state sys.state) u := by
    intro u
    rcases harrival with heq | harrival
    · rw [heq]
      exact (Change.stay (w := none)).calm h.sound nofun
    · exact harrival.calm h.sound
  have hsettled : Settled sys.state (o.state sys.state) := by
    rcases harrival with heq | harrival
    · exact heq.symm ▸ .refl _
    · exact harrival.settled
  have hphase : ∀ b, (sys.apply a op o).phase? b = sys.phase? b := by
    intro b
    rw [System.phase?_apply hcall]
    split
    · next hba =>
      rw [hba, System.phase?, hcall]
      cases ho <;> rfl
    · rfl
  constructor
  case sound => rw [System.state_apply]; exact hsound
  case placed =>
    refine h.placed_apply (fun u _ => hcalm u) (fun l => congrArg _ (ho.lock?_eq l)) ?_
    rw [hcall]
    exact ho.placed (hcall ▸ h.placed a) hcalm
  case inside => exact fun b => inside_apply_isSome
  case submitters => exact h.submitters.intake h.sound.roster hcall ho
  case fillers =>
    refine h.fillers.keep (by simpa using hsettled) (fun b => ?_) fun b hb hb' => ?_
    · rw [System.fill?, hphase]
      rfl
    · cases hb'.symm.trans hinside
      simp [System.fill?, System.phase?, hcall, Point.phase?] at hb
  case watched =>
    refine h.watched.keep (fun b ph hb hph => ?_) (by simpa using hsettled) fun u hu => ?_
    · cases hb.symm.trans hinside
      simp [System.phase?, hcall, Point.phase?] at hph
    · rw [System.state_apply]
      exact (hcalm u).canProgress hu

/-- A change by nobody in particular keeps the invariant, if it drops no lock that is in use. -/
lemma change (h : Invariant sys) {s' : State} (hinside : sys.inside = none)
    (hc : Change sys.state none s') (hsettled : Settled sys.state s')
    (hlocks : ∀ a call, sys.calls.get? a = some call → ∀ l ∈ call.operation.locks,
      (sys.state.lock? l).isSome → (s'.lock? l).isSome) :
    Invariant { sys with state := s' } := by
  have hcalm : ∀ u, Calm sys.state s' u := fun u => hc.calm h.sound nofun
  constructor
  case sound => exact hc.sound h.sound
  case placed => exact fun a => (h.placed a).calm (fun u _ => hcalm u) (hlocks a)
  case inside => exact h.inside
  case submitters =>
    exact h.submitters.keep (hc.patient h.sound) (fun _ _ _ hb _ => hb) fun _ _ _ _ => id
  case fillers =>
    exact h.fillers.keep hsettled (fun _ => rfl) fun b _ hb => by cases hb.symm.trans hinside
  case watched =>
    exact h.watched.keep (fun b _ hb => by cases hb.symm.trans hinside) hsettled fun u hu =>
      (hcalm u).canProgress hu

/-- Who enters the critical section keeps the invariant. -/
lemma enter (h : Invariant sys) {call : Call} (hinside : sys.inside = none)
    (hcall : sys.calls.get? a = some call) : Invariant { sys with inside := some a } where
  sound := h.sound
  placed := h.placed
  inside b hb := by
    cases hb
    exact Option.isSome_iff_exists.mpr ⟨call, hcall⟩
  submitters := h.submitters.keep (.refl _) (fun _ _ _ hb _ => hb) fun _ _ _ _ => id
  fillers := h.fillers.keep (.refl _) (fun _ => rfl) fun b _ hb => by cases hb.symm.trans hinside
  watched := h.watched.keep (fun b _ hb => by cases hb.symm.trans hinside) (.refl _) fun _ => id

/-- A thread with a place is in an operation. -/
lemma call_of_phase (h : Invariant sys) {ph : Phase} (hph : sys.phase? (.unit t) = some ph) :
    sys.calls.get? (.unit t) = some ⟨ph.operation, .thread t ph⟩ := by
  obtain ⟨⟨op, point⟩, hcall, hpoint⟩ := Option.bind_eq_some_iff.mp hph
  cases point with
  | submission p => cases hpoint
  | thread u ph' =>
    cases hpoint
    obtain ⟨hu, rfl, -⟩ := (hcall ▸ h.placed (.unit t)).of_thread
    cases hu
    exact hcall

/-- Whoever is in the queue of a lock is in an operation that asks for the lock. -/
lemma call_of_linked (h : Invariant sys) {l : LockId} (hlink : sys.state.linkOf? t = some l) :
    ∃ ph, sys.calls.get? (.unit t) = some ⟨.lock l, .thread t ph⟩ := by
  have hqueue := (h.placed (.unit t)).poised.linked l hlink
  obtain ⟨ph, hph, hl⟩ := Option.bind_eq_some_iff.mp hqueue
  refine ⟨ph, ?_⟩
  rw [h.call_of_phase hph, Phase.operation_of_queue? hl]

/-- Nobody is in the queue of a lock that no operation uses. -/
lemma unlinked (h : Invariant sys) {l : LockId}
    (hunused : ∀ a call, sys.calls.get? a = some call → l ∉ call.operation.locks) (t : ThreadId) :
    sys.state.linkOf? t ≠ some l := by
  intro hlink
  obtain ⟨ph, hcall⟩ := h.call_of_linked hlink
  exact hunused (.unit t) _ hcall (List.mem_singleton.mpr rfl)

/-- Every move keeps the invariant. -/
theorem step (h : Invariant sys) (hs : System.Step sys sys') : Invariant sys' := by
  obtain ⟨eligible, m, hm⟩ := hs
  cases h.transition hm with
  | call a op o hinside hidle halive hlocks ho => exact h.call hinside hidle halive hlocks ho
  | stretch t op ph o hinside hcall hop ho => exact h.stretch hinside hcall hop ho
  | intake a op p o hinside hcall ho => exact h.intake hinside hcall ho
  | enter a call hinside hcall => exact h.enter hinside hcall
  | newLock hinside =>
    refine h.change hinside .newLock ⟨rfl, rfl, rfl, List.prefix_rfl⟩ fun _ _ _ l _ hl => ?_
    rw [lock?_registerLock]
    split
    · rfl
    · exact hl
  | dropLock l hinside hl hunused =>
    refine h.change hinside (.dropLock l hl (h.unlinked hunused)) (settled_dropLock hl)
      fun a call hcall m hm hm' => ?_
    rw [lock?_dropLock hl]
    split
    · next he => exact absurd (he ▸ hm) (hunused a call hcall)
    · exact hm'

/-- Every move makes one of the listed changes, or a thread arrives. -/
theorem effect (h : Invariant sys) (hs : System.Step sys sys') :
    (∃ w, Change sys.state w sys'.state) ∨ Arrival sys.state sys'.state := by
  obtain ⟨eligible, m, hm⟩ := hs
  cases h.transition hm with
  | call a op o hinside hidle halive hlocks ho =>
    rw [System.state_apply]
    exact .inl ⟨none, ho.change⟩
  | stretch t op ph o hinside hcall hop ho =>
    rw [System.state_apply]
    exact .inl ⟨some t, h.stretch_change hcall hop ho⟩
  | intake a op p o hinside hcall ho =>
    rw [System.state_apply]
    rcases h.intake_arrival hcall ho with heq | harrival
    · exact .inl ⟨none, heq.symm ▸ .stay⟩
    · exact .inr harrival
  | enter a call hinside hcall => exact .inl ⟨none, .stay⟩
  | newLock hinside => exact .inl ⟨none, .newLock⟩
  | dropLock l hinside hl hunused => exact .inl ⟨none, .dropLock l hl (h.unlinked hunused)⟩

/-- The invariant holds of every system that can be reached. -/
theorem of_reachable (h : System.Reachable c sys) : Invariant sys := by
  induction h using System.Reachable.induction with
  | initial sys hstart => exact initial hstart
  | step sys sys' _ hs ih => exact ih.step hs

end Invariant

namespace System

/-- Moves do not change the configuration. -/
lemma Reachable.config_eq {c : Config} {sys : System} (h : Reachable c sys) : sys.config = c := by
  induction h using Reachable.induction with
  | initial sys hstart =>
    obtain ⟨rounds, -, rfl⟩ := Invariant.exists_rounds_of_initial hstart
    rfl
  | step sys sys' hreach hs ih =>
    obtain ⟨eligible, m, hm⟩ := hs
    cases (Invariant.of_reachable hreach).transition hm with
    | call | stretch | intake => exact (config_apply ..).trans ih
    | _ => exact ih

end System

/-! ### What a move is to the rounds -/

namespace System

/-- The stretch of a thread that is inside the critical section. -/
structure StretchOf (eligible : ThreadId → Bool) (sys : System) (t : ThreadId) (ph : Phase)
    (o : Outcome) : Prop where
  inside : sys.inside = some (.unit t)
  call : sys.calls.get? (.unit t) = some ⟨ph.operation, .thread t ph⟩
  stretch : Stretch eligible sys.state t ph o

/-- What a move is to the rounds. -/
inductive RoundMove (eligible : ThreadId → Bool) (sys : System) : System → Prop
  /-- Nobody fills a round, and the thread inside the critical section begins the first one, or the
  next one because the last one is over. It fills that round from the front of the list. -/
  | begins {sys' : System} (t : ThreadId) (hinside : sys.inside = some (.unit t))
    (hover : sys.state.round = 0 ∨
      sys.state.live.primaries ≤ sys.state.primaries.length ∧
        ∀ u ∈ sys.state.primaries, sys.state.canProgress u = false)
    (hbegun : Begun sys.state sys'.state) (hnone : ∀ a, sys.fill? a = none)
    (hfill : ∀ a, sys'.fill? a = if a = .unit t then some (0, sys.state.staged) else none) :
    RoundMove eligible sys sys'
  /-- It is part of a fill, which nobody else is at. -/
  | fills {t : ThreadId} (index : Nat) (plan : RoundConfig) (k : AfterFill) {o : Outcome}
    (ho : sys.StretchOf eligible t (.fill index plan k) o)
    (hbefore : sys.fill? (.unit t) = some (index, plan)) (hfilling : sys.state.Filling index plan)
    (hfill : ∀ a, (sys.apply (.unit t) (Phase.fill index plan k).operation o).fill? a =
      if a = .unit t then o.fill? (.fill index plan k) else none) :
    RoundMove eligible sys (sys.apply (.unit t) (Phase.fill index plan k).operation o)
  /-- It is neither. Whoever fills the round is not inside the critical section, and stays where it
  is. -/
  | aside {sys' : System} {new : List Event} (haside : Aside sys.state sys'.state new)
    (hfill : ∀ a, sys'.fill? a = sys.fill? a)
    (hidle : ∀ a, sys.inside = some a → sys.fill? a = none) : RoundMove eligible sys sys'

/-- Nobody fills a round once the one thread that did is done with it. -/
lemma none_of_filled {sys : System} {s : State} {t : ThreadId} {ph : Phase} {k : AfterFill}
    (hfill : ∀ a, sys.fill? a =
      if a = .unit t then (Outcome.goto s (.thread t k.phase)).fill? ph else none) (a : Agent) :
    sys.fill? a = none := by
  rw [hfill]
  split
  · exact k.fill?_phase
  · rfl

end System

namespace Invariant

variable {sys sys' : System} {eligible : ThreadId → Bool} {t : ThreadId} {ph : Phase} {o : Outcome}

/-- Every stretch of a thread is of one of these kinds. -/
lemma roundMove_stretch (h : Invariant sys) (ho : sys.StretchOf eligible t ph o) :
    sys.RoundMove eligible (sys.apply (.unit t) ph.operation o) := by
  have hbefore := System.fill?_of_call ho.call
  have hafter : ∀ a, (sys.apply (.unit t) ph.operation o).fill? a =
      if a = .unit t then o.fill? ph else sys.fill? a := by
    intro a
    split
    · next ha => rw [ha, System.fill?_apply_self ho.call]
    · next ha => exact System.fill?_apply_of_ne ha
  -- Once nobody else fills the round, only the thread itself may do so afterwards.
  have halone : (∀ a, a ≠ .unit t → sys.fill? a = none) → ∀ a,
      (sys.apply (.unit t) ph.operation o).fill? a =
        if a = .unit t then o.fill? ph else none := by
    intro hnone a
    rw [hafter]
    split
    · rfl
    · next ha => exact hnone a ha
  cases ho.stretch.roundPart with
  | begins k hph hover hbegun =>
    have hnone : ∀ a, a ≠ .unit t → sys.fill? a = none := fun a ha => by
      rcases hover with hround | ⟨hfull, -⟩
      · exact h.fillers.none_of_unbegun hround a
      · exact h.fillers.none_of_full ho.inside hfull ha
    refine .begins t ho.inside hover hbegun (fun a => ?_) (halone hnone)
    by_cases ha : a = .unit t
    · rw [ha, hbefore, hph]
    · exact hnone a ha
  | fills index plan k =>
    have hsome : (sys.fill? (.unit t)).isSome := by simp [hbefore, Phase.fill?]
    exact .fills index plan k ho hbefore (h.fillers.filling _ index plan hbefore).1
      (halone fun a => h.fillers.none_of_ne hsome)
  | aside hph hnone haside =>
    refine .aside (by simpa using haside) (fun a => ?_) fun a ha => ?_
    · rw [hafter]
      split
      · next ha => rw [ha, hbefore, hph, hnone]
      · rfl
    · cases ha.symm.trans ho.inside
      exact hbefore.trans hph

/-- Every move is of one of these kinds. -/
theorem roundMove (h : Invariant sys) {m : Move} (hm : sys.move? eligible m = some sys') :
    sys.RoundMove eligible sys' := by
  have hoff : sys.inside = none → ∀ a, sys.inside = some a → sys.fill? a = none :=
    fun hinside a ha => by cases ha.symm.trans hinside
  cases h.transition hm with
  | stretch t op ph o hinside hcall hop ho =>
    subst hop
    exact h.roundMove_stretch ⟨hinside, hcall, ho⟩
  | call a op o hinside hidle halive hlocks ho =>
    obtain ⟨⟨new, haside⟩, hnone⟩ := ho.aside
    refine .aside (by simpa using haside) (fun b => ?_) (hoff hinside)
    rw [System.fill?_apply hidle, hnone]
    split
    · next hb => rw [hb, System.fill?, System.phase?, hidle]; rfl
    · rfl
  | intake a op p o hinside hcall ho =>
    have hout : sys.fill? a = none := by rw [System.fill?, System.phase?, hcall]; rfl
    have haside : Aside sys.state (o.state sys.state) [] := by
      rcases h.intake_arrival hcall ho with heq | harrival
      · rw [heq]
        exact (Settled.refl _).aside_of_silent rfl rfl
      · exact harrival.aside
    refine .aside (by simpa using haside) (fun b => ?_) fun b hb => ?_
    · rw [System.fill?_apply hcall]
      split
      · next hb =>
        rw [hb, hout]
        cases ho <;> rfl
      · rfl
    · cases hb.symm.trans hinside
      exact hout
  | enter a call hinside =>
    exact .aside ((Settled.refl _).aside_of_silent rfl rfl) (fun _ => rfl) (hoff hinside)
  | newLock hinside =>
    have hsettled : Settled sys.state sys.state.registerLock := ⟨rfl, rfl, rfl, List.prefix_rfl⟩
    exact .aside (hsettled.aside_of_silent rfl rfl) (fun _ => rfl) (hoff hinside)
  | dropLock l hinside hl =>
    have hstaged : (sys.state.dropLock l).staged = sys.state.staged := by rw [dropLock_eq hl]
    exact .aside ((settled_dropLock hl).aside_of_silent hstaged (events_dropLock hl))
      (fun _ => rfl) (hoff hinside)

end Invariant

end RoundScheduler
