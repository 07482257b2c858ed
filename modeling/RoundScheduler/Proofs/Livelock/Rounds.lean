import RoundScheduler.Proofs.Livelock.Account
import RoundScheduler.Proofs.Starvation

/-!
# Every round completes something

Under the discipline no round ends before an ordered step was completed or a thread retired in it.
Otherwise everybody would have taken a turn and be in a queue, the owners of the locks too, since
they are among the primaries; but nobody is in a queue who owns a lock. So the number of the round
and what is still due never exceed together what was due in the beginning by more than one.
-/

namespace RoundScheduler

open State

namespace State

variable {s s' : State} {t : ThreadId} {slot : Slot}

/-- Nothing was completed in the current round: whoever took a turn of it is in a queue, and nobody
retired in it. -/
structure Idle (s : State) : Prop where
  queued : ∀ t slot, .turn s.round t slot ∈ s.events → ∃ l, s.linkOf? t = some l
  alive : ∀ t, .terminated s.round t ∉ s.events

/-- It stays so if the only new turns are of threads that are in a queue now. -/
lemma Idle.keep (h : Idle s) (hround : s'.round = s.round)
    (hturn : ∀ t slot, .turn s.round t slot ∈ s'.events →
      .turn s.round t slot ∈ s.events ∨ ∃ l, s'.linkOf? t = some l)
    (hterminated : ∀ t, .terminated s.round t ∈ s'.events → .terminated s.round t ∈ s.events)
    (hlink : ∀ t, (∃ l, s.linkOf? t = some l) → ∃ l, s'.linkOf? t = some l) : Idle s' where
  queued t slot ht := by
    rw [hround] at ht
    rcases hturn t slot ht with ht | hlinked
    · exact hlink t (h.queued t slot ht)
    · exact hlinked
  alive t ht := by
    rw [hround] at ht
    exact h.alive t (hterminated t ht)

/-- It stays so if nothing is recorded and nobody leaves a queue. -/
lemma Idle.same (h : Idle s) (hround : s'.round = s.round) (hevents : s'.events = s.events)
    (hlink : ∀ t, s'.linkOf? t = s.linkOf? t) : Idle s' :=
  h.keep hround (fun _ _ ht => .inl (hevents ▸ ht)) (fun _ ht => hevents ▸ ht)
    fun t hl => hlink t ▸ hl

/-- A round in which nothing happened yet is idle. -/
lemma Idle.of_begun (hchronicle : Chronicle s) (hround : s'.round = s.round + 1)
    (hevents : s'.events = s.events) : Idle s' where
  queued t slot ht := by
    rw [hround, hevents] at ht
    exact absurd (hchronicle.rounds _ ht) (by simp [Event.round])
  alive t ht := by
    rw [hround, hevents] at ht
    exact absurd (hchronicle.rounds _ ht) (by simp [Event.round])

end State

/-- A thread that goes on within its operation and does not retire completes nothing. -/
lemma Stretch.idle {eligible : ThreadId → Bool} {s s' : State} {me : ThreadId} {ph : Phase}
    {point : Point} (ho : Stretch eligible s me ph (.goto s' point)) (hs : s.Sound)
    (hph : ph ≠ .awaitRetirement) (hround : s'.round = s.round) (h : s.Idle) : s'.Idle := by
  cases ho with
  | bootstrap | bootstrapRetirement => exact absurd (round_beginRound.symm.trans hround) (by simp)
  | closed => exact absurd (round_nextRound.symm.trans hround) (by simp)
  | finished => exact h.same rfl rfl fun t => linkOf?_of_map record?_finish fun _ => rfl
  | notNext => exact h.same rfl rfl fun t => linkOf?_of_map record?_awaitTurn fun _ => rfl
  | chosen => exact h.same rfl rfl fun t => linkOf?_of_map record?_choose fun _ => rfl
  | filled =>
    refine h.keep rfl (fun t slot ht => .inl ?_) (fun t ht => ?_) fun t => id
    · simpa using ht
    · simpa using ht
  | queued l k slot hslot =>
    obtain ⟨r, hr, -⟩ := hs.seating.primary_of_slot hslot
    have hme : ((s.afterTurn me slot).enqueue l me).linkOf? me = some l := by
      simp [linkOf?, record?_enqueue, record?_afterTurn, hr]
    refine h.keep (round_afterTurn slot) (fun t slot' ht => ?_) (fun t ht => ?_) fun t hlinked => ?_
    · rw [events_enqueue, events_afterTurn, List.mem_append, List.mem_singleton] at ht
      refine ht.imp_right fun heq => ?_
      cases heq
      exact ⟨l, hme⟩
    · simpa using ht
    · by_cases htme : t = me
      · rw [htme]
        exact ⟨l, hme⟩
      · rwa [linkOf?_enqueue_of_ne htme, linkOf?_afterTurn]
  | retired => exact absurd rfl hph
  | _ => exact h

/-- Nobody arrives in a queue. -/
lemma State.Arrival.linkOf?_eq {s s' : State} (ha : State.Arrival s s') (h : s.Roster)
    (t : ThreadId) : s'.linkOf? t = s.linkOf? t := by
  have hnone : s.record? s.nextThread = none := by simpa [started?] using h.nextThread_unknown
  have henrol : s.enrol.linkOf? t = s.linkOf? t := by
    rw [linkOf?, record?_enrol, linkOf?]
    split
    · next ht => simp [ht, hnone]
    · rfl
  cases ha with
  | enrol | block => exact henrol
  | list u work => exact linkOf?_of_map (record?_list work) fun _ => rfl

/-- No round ends in which nothing was completed. -/
lemma Orderly.not_idle_of_closing {c : Config} {sys next : System} {eligible : ThreadId → Bool}
    (h : Orderly sys) (hreach : System.Reachable c sys) (hformed : Formed eligible sys)
    (heligible : ∀ t, eligible t = true) (hs : System.Step sys next)
    (hbegun : sys.state.round ≠ 0) (hne : next.state.round ≠ sys.state.round) :
    ¬ sys.state.Idle := by
  intro hidle
  have hinv := Invariant.of_reachable hreach
  have hfull : sys.state.live.primaries ≤ sys.state.primaries.length := by
    rcases hinv.effect hs with ⟨w, hchange⟩ | harrival
    · exact (hchange.stuck_of_round_ne hbegun hne).1
    · exact absurd harrival.settled.round hne
  have hlinked : ∀ t ∈ sys.state.primaries, ∃ l, sys.state.linkOf? t = some l := fun t ht => by
    rcases System.turn_or_terminated_of_closing hreach hs hbegun hne ht with ⟨slot, hturn⟩ | hend
    · exact hidle.queued t slot hturn
    · exact absurd hend (hidle.alive t)
  -- Somebody waits for a lock, and whoever owns it waits for another one.
  obtain ⟨t, ht⟩ := List.exists_mem_of_length_pos
    (Nat.lt_of_lt_of_le hinv.sound.seating.positive hfull)
  obtain ⟨l, hl⟩ := hlinked t ht
  obtain ⟨k, hk, hqueue⟩ := (hinv.sound.queues.linked t l).mp hl
  obtain ⟨u, hu⟩ := Option.ne_none_iff_exists'.mp fun hnone =>
    absurd hqueue (hinv.sound.queues.owned l k hk hnone ▸ List.not_mem_nil)
  have howner : sys.state.ownerOf? l = some u := ownerOf?_eq_some_iff.mpr ⟨k, hk, hu⟩
  obtain ⟨m, hm⟩ := hlinked u (h.mem_primaries_of_owner hformed heligible hfull howner)
  exact h.ownsNothing_of_linked hinv hm l howner

namespace Agenda

variable {w : Agenda} {submitter : Nat → Nat} {sys sys' : System} {t : ThreadId} {op : Operation}
  {o : Outcome}

/-- How many ordered steps the routines of the units have. -/
def orderedSteps (w : Agenda) : Nat := w.units.flatten.countP Instruction.isOrdered

/-- The ordered steps and retirements that are due. -/
abbrev dueSteps (w : Agenda) (sys : System) : Nat := w.due Instruction.isOrdered 1 sys

/-- Every round but the current one was paid for by something that was completed, and so is the
current one unless it is idle. -/
def Paced (w : Agenda) (sys : System) : Prop :=
  sys.state.round + w.dueSteps sys ≤ w.units.length + w.orderedSteps + w.handedOver sys ∨
    sys.state.round ≠ 0 ∧ sys.state.Idle ∧
      sys.state.round + w.dueSteps sys ≤ w.units.length + w.orderedSteps + w.handedOver sys + 1

/-- It stays so if nothing is added to what is due, and an idle round stays idle. -/
lemma Paced.keep (h : w.Paced sys) (hround : sys'.state.round = sys.state.round)
    (hdue : w.dueSteps sys' + w.handedOver sys ≤ w.dueSteps sys + w.handedOver sys')
    (hidle : sys.state.Idle → sys'.state.Idle) : w.Paced sys' := by
  rw [Paced, hround]
  rcases h with h | ⟨hbegun, hidle', h⟩
  · exact .inl (by omega)
  · exact .inr ⟨hbegun, hidle hidle', by omega⟩

/-- It stays so if something is completed. -/
lemma Paced.complete (h : w.Paced sys) (hround : sys'.state.round = sys.state.round)
    (hdue : w.dueSteps sys' + w.handedOver sys + 1 ≤ w.dueSteps sys + w.handedOver sys') :
    w.Paced sys' := by
  rw [Paced, hround]
  rcases h with h | ⟨-, -, h⟩ <;> exact .inl (by omega)

/-- It stays so if a round begins after one that was not idle. -/
lemma Paced.begin (h : w.Paced sys) (hround : sys'.state.round = sys.state.round + 1)
    (hdue : w.dueSteps sys' + w.handedOver sys ≤ w.dueSteps sys + w.handedOver sys')
    (hclosing : sys.state.round ≠ 0 → ¬ sys.state.Idle) (hidle : sys'.state.Idle) :
    w.Paced sys' := by
  rcases h with h | ⟨hbegun, hidle', -⟩
  · exact .inr ⟨by omega, hidle, by omega⟩
  · exact absurd hidle' (hclosing hbegun)

/-! ### One step -/

/-- A client completes nothing. -/
lemma Paced.client {i : Nat} {p : Submission} (h : w.Paced sys) (hengaged : w.Engaged submitter sys)
    (hinv : Invariant sys) (hi : i < w.units.length)
    (hcall : sys.calls.get? (.client (submitter i)) = some ⟨.submit (.scripted i), .submission p⟩)
    (hanswered : answered i sys.returns = false) (hafter : p.after = .answer)
    (ho : Intake sys.config sys.state p o) :
    w.Paced (sys.apply (.client (submitter i)) (.submit (.scripted i)) o) := by
  have hhanded : w.handedOver (sys.apply (.client (submitter i)) (.submit (.scripted i)) o) =
      w.handedOver sys := Finset.sum_congr rfl fun t _ => handed_apply_of_ne (by simp) fun l => by
    rw [ownerOf?_congr (ho.lock?_eq l)]
  have hdue : w.dueSteps (sys.apply (.client (submitter i)) (.submit (.scripted i)) o) ≤
      w.dueSteps sys := by
    cases o with
    | sleep => exact Nat.le_refl _
    | goto s' point => exact due_apply_client rfl fun t => isAlive_goto ho
    | pause s' point => cases ho <;> cases hafter
    | reply s' r =>
      exact Nat.le_of_add_le_add_right (due_reply_client hengaged hinv hi hcall hafter hanswered ho)
  rcases hinv.intake_arrival hcall ho with heq | harrival
  · exact h.keep (by rw [System.state_apply, heq]) (by omega)
      fun hidle => by rwa [System.state_apply, heq]
  · refine h.keep (by rw [System.state_apply, harrival.settled.round]) (by omega) fun hidle => ?_
    rw [System.state_apply]
    exact hidle.same harrival.settled.round harrival.events_eq
      (harrival.linkOf?_eq hinv.sound.roster)

/-- What is handed over changes by no more than what is handed to the thread that is singled out. -/
lemma handedOver_le {a b : Nat} (ht : t.raw < w.units.length)
    (hother : ∀ u, u ≠ t → handed sys u ≤ handed sys' u)
    (hown : handed sys t + a ≤ handed sys' t + b) :
    w.handedOver sys + a ≤ w.handedOver sys' + b :=
  sum_add_le (f := fun u => handed sys ⟨u⟩) (g := fun u => handed sys' ⟨u⟩) ht
    (fun u hu => hother ⟨u⟩ fun heq => hu (congrArg ThreadId.raw heq)) hown

/-- Nobody is handed a lock that is released. -/
lemma handedOver_release {l : LockId} {r : Reply} (ht : t.raw < w.units.length)
    (hnothing : handed sys t = 0) (howner : sys.state.ownerOf? l = some t) :
    w.handedOver sys ≤ w.handedOver (sys.apply (.unit t) op (.reply (sys.state.release l) r)) := by
  refine handedOver_le (a := 0) (b := 0) ht (fun u hu => Nat.le_of_eq ?_) (by omega)
  refine (handed_apply_of_ne (by simpa using Ne.symm hu) fun m => ?_).symm
  rw [Outcome.state, ownerOf?_release]
  split
  · next hml => simp [hml, howner, Ne.symm hu]
  · rfl

/-- The next owner of a lock got what it waits for, but does not know it yet. -/
lemma handedOver_handOver {l : LockId} {r : Reply} (hengaged : w.Engaged submitter sys)
    (hinv : Invariant sys) (hnothing : handed sys t = 0) (howner : sys.state.ownerOf? l = some t)
    (hlink : sys.state.linkOf? u = some l) :
    w.handedOver sys + 1 ≤
      w.handedOver (sys.apply (.unit t) op (.reply (sys.state.handOver l u) r)) := by
  have hne : u ≠ t := fun heq => hinv.sound.not_linked_of_owner howner (heq ▸ hlink)
  obtain ⟨k, hk, -⟩ := ownerOf?_eq_some_iff.mp howner
  obtain ⟨record, hrecord, -⟩ := linkOf?_eq_some_iff.mp hlink
  obtain ⟨ph, hcall⟩ := hinv.call_of_linked hlink
  have hop : sys.operation? u = some (.lock l) := by rw [System.operation?, hcall]; rfl
  have hbefore : handed sys u = 0 := handed_eq_zero fun m hm => by
    cases hop.symm.trans hm
    simp [howner, Ne.symm hne]
  have hafter : handed (sys.apply (.unit t) op (.reply (sys.state.handOver l u) r)) u = 1 := by
    rw [handed, System.operation?_apply, if_neg (by simpa using hne), hop]
    simp [Outcome.state, ownerOf?_handOver, hk]
  have hu : u.raw < w.units.length := hengaged.raw_lt hinv (by simp [hrecord])
  refine handedOver_le (b := 0) hu (fun x hx => ?_) (by omega)
  by_cases hxt : x = t
  · rw [hxt, hnothing]
    exact Nat.zero_le _
  · refine Nat.le_of_eq (handed_apply_of_ne (by simpa using Ne.symm hxt) fun m => ?_).symm
    rw [Outcome.state, ownerOf?_handOver (by simp [hk])]
    split
    · next hml => simp [hml, howner, Ne.symm hx, Ne.symm hxt]
    · rfl

/-- A call of a thread completes nothing, unless it hands over a lock. -/
lemma Paced.call (h : w.Paced sys) (hengaged : w.Engaged submitter sys) (hinv : Invariant sys)
    (hidle : sys.calls.get? (.unit t) = none) (halive : sys.state.isAlive t = true)
    (hop : op = (w.todo t sys.returns).operation) (ho : Opening sys.state (.unit t) op o) :
    w.Paced (sys.apply (.unit t) op o) := by
  have hs := hinv.sound
  have hsubmits : op.submits = false := hop ▸ Routine.submits_operation _
  have hc : Change sys.state none (o.state sys.state) := ho.change
  obtain ⟨r, hr, -⟩ := exists_record_of_isAlive halive
  have ht : t.raw < w.units.length := hengaged.raw_lt hinv (by simp [hr])
  have hnothing : handed sys t = 0 := handed_of_idle (by rw [System.operation?, hidle]; rfl)
  -- Those that change no lock leave everything as it is.
  have hsame : o.state sys.state = sys.state →
      w.dueSteps (sys.apply (.unit t) op o) ≤ w.dueSteps sys →
      w.Paced (sys.apply (.unit t) op o) := fun hstate hdue => by
    have hhanded : w.handedOver sys + 0 ≤ w.handedOver (sys.apply (.unit t) op o) + 0 :=
      handedOver_le ht (fun u hu => Nat.le_of_eq (handed_apply_of_ne (by simpa using Ne.symm hu)
        fun l => by rw [hstate]).symm) (by omega)
    exact h.keep (by rw [System.state_apply, hstate]) (by omega)
      fun hidle => by rwa [System.state_apply, hstate]
  have hgoto : ∀ point, w.dueSteps (sys.apply (.unit t) op (.goto sys.state point)) ≤
      w.dueSteps sys := fun point =>
    due_apply_unit (a := 0) (v := none) hs hsubmits .stay ht (load_le rfl id)
  cases ho with
  | submit | fill => cases hsubmits
  | turn | lock | reconfigure | retire => exact hsame rfl (hgoto _)
  | owner | relock | notOwner => exact hsame rfl (due_reply_le hs hop hc ht)
  | unlinked | forgotten => exact absurd hop.symm operation_ne_unqueue
  | released _ l k hk howner hqueue =>
    have hdue : w.dueSteps (sys.apply (.unit t) (.unlock l)
        (.reply (sys.state.release l) .done)) ≤ w.dueSteps sys := due_reply_le hs hop hc ht
    have hhanded : _ ≤ w.handedOver (sys.apply (.unit t) (.unlock l)
        (.reply (sys.state.release l) .done)) :=
      handedOver_release ht hnothing (ownerOf?_eq_some_iff.mpr ⟨k, hk, howner⟩)
    exact h.keep rfl (by omega) fun hidle => hidle.same rfl rfl fun _ => rfl
  | handedOver _ l k next rest hk howner hqueue =>
    have hlink := hs.queues.linkOf?_of_head hk hqueue
    have hdue : w.dueSteps (sys.apply (.unit t) (.unlock l)
        (.reply (sys.state.handOver l next) .done)) ≤ w.dueSteps sys := due_reply_le hs hop hc ht
    have hhanded : _ ≤ w.handedOver (sys.apply (.unit t) (.unlock l)
        (.reply (sys.state.handOver l next) .done)) := handedOver_handOver hengaged hinv hnothing
      (ownerOf?_eq_some_iff.mpr ⟨k, hk, howner⟩) hlink
    exact h.complete rfl (by omega)

section Thread

variable {ph : Phase} {s' : State} (hengaged : w.Engaged submitter sys) (hinv : Invariant sys)
  (hcall : sys.calls.get? (.unit t) = some ⟨ph.operation, .thread t ph⟩)

include hcall

/-- Nothing is handed over while an operation goes on. -/
lemma handedOver_goto {point : Point} (ho : Stretch w.eligible sys.state t ph (.goto s' point)) :
    w.handedOver (sys.apply (.unit t) ph.operation (.goto s' point)) = w.handedOver sys := by
  have howner : ∀ u l, s'.ownerOf? l = some u ↔ sys.state.ownerOf? l = some u := fun u l => by
    rw [ho.ownerOf?_goto]
  refine Finset.sum_congr rfl fun u _ => ?_
  by_cases hut : ⟨u⟩ = t
  · subst hut
    exact handed_congr (by rw [System.operation?_apply, if_pos rfl, System.operation?, hcall]; rfl)
      (howner _)
  · exact handed_apply_of_ne (by simpa using Ne.symm hut) (howner _)

include hengaged hinv

/-- A step that was taken is done, unless the thread has to wait for a lock. -/
lemma Paced.take {p : Purpose} {r : Reply} (h : w.Paced sys) (hph : ph = .awaitPrimary p)
    (hop : (w.todo t sys.returns).operation = ph.operation)
    (hc : Change sys.state (some t) s') (hround : s'.round = sys.state.round)
    (howner : ∀ u l, u ≠ t → (s'.ownerOf? l = some u ↔ sys.state.ownerOf? l = some u)) :
    w.Paced (sys.apply (.unit t) ph.operation (.reply s' r)) := by
  have ht := hengaged.raw_lt_of_call hcall
  have hdue : w.dueSteps (sys.apply (.unit t) ph.operation (.reply s' r)) + 1 ≤
      w.dueSteps sys := due_reply_lt hinv.sound hop.symm hc ht
      (Routine.countP_isOrdered (p := p) (by rw [hop, hph]; rfl))
  have hnothing : handed sys t = 0 := handed_eq_zero fun l hl howner => by
    obtain ⟨k, hk, hkt⟩ := ownerOf?_eq_some_iff.mp howner
    rw [System.operation?, hcall, hph] at hl
    have hpoised := (hcall ▸ hinv.placed (.unit t)).poised
    refine hpoised.asking l k ?_ hk hkt
    cases p <;> cases hl
    rw [hph]
    rfl
  have hhanded : w.handedOver sys + 0 ≤
      w.handedOver (sys.apply (.unit t) ph.operation (.reply s' r)) + 0 :=
    handedOver_le ht (fun u hu => Nat.le_of_eq (handed_apply_of_ne (o := .reply s' r)
      (by simpa using Ne.symm hu) fun l => howner u l hu).symm) (by omega)
  exact h.complete (by rw [System.state_apply]; exact hround) (by omega)

/-- A thread that returns without a change to the state completes what was handed to it, or
nothing. -/
lemma Paced.leave {r : Reply} (h : w.Paced sys)
    (hop : (w.todo t sys.returns).operation = ph.operation)
    (hdone : handed sys t = 0 ∨ ∃ l, ph.operation = .lock l) :
    w.Paced (sys.apply (.unit t) ph.operation (.reply sys.state r)) := by
  have ht := hengaged.raw_lt_of_call hcall
  have hother : ∀ u, u ≠ t →
      handed sys u ≤ handed (sys.apply (.unit t) ph.operation (.reply sys.state r)) u := fun u hu =>
    Nat.le_of_eq (handed_apply_of_ne (by simpa using Ne.symm hu) fun l => .rfl).symm
  have hc : Change sys.state (some t) sys.state := .stay
  rcases hdone with hnothing | ⟨l, hl⟩
  · have hdue : w.dueSteps (sys.apply (.unit t) ph.operation (.reply sys.state r)) ≤
        w.dueSteps sys := due_reply_le hinv.sound hop.symm hc ht
    have hhanded : w.handedOver sys + 0 ≤ _ + 0 := handedOver_le ht hother (by omega)
    exact h.keep rfl (by omega) id
  · have hdue : w.dueSteps (sys.apply (.unit t) ph.operation (.reply sys.state r)) + 1 ≤
        w.dueSteps sys := due_reply_lt hinv.sound hop.symm hc ht
        (Routine.countP_isOrdered (p := .lock l) (hop.trans hl))
    have hone : handed sys t ≤ 1 := by
      unfold handed
      split
      · split <;> omega
      · exact Nat.zero_le _
    have hhanded : w.handedOver sys + 0 ≤ _ + 1 := handedOver_le ht hother (by omega)
    exact h.keep rfl (by omega) id

/-- A thread that goes one place further completes something, or does not end an idle round. -/
lemma Paced.stretch {c : Config} (h : w.Paced sys) (hreach : System.Reachable c sys)
    (horderly : Orderly sys) (hformed : Formed w.eligible sys)
    (heligible : ∀ t, w.eligible t = true)
    (hop : (w.todo t sys.returns).operation = ph.operation)
    (ho : Stretch w.eligible sys.state t ph o)
    (hs : System.Step sys (sys.apply (.unit t) ph.operation o)) :
    w.Paced (sys.apply (.unit t) ph.operation o) := by
  have ht := hengaged.raw_lt_of_call hcall
  have hsubmits : ph.operation.submits = false := hop ▸ Routine.submits_operation _
  have hc := hinv.stretch_change hcall rfl ho
  have hfree : ∀ {l k}, sys.state.lock? l = some k → k.owner = none → ∀ slot u m, u ≠ t →
      (((sys.state.afterTurn t slot).grant l t).ownerOf? m = some u ↔
        sys.state.ownerOf? m = some u) := fun {l k} hk hfree slot u m hu => by
    rw [ownerOf?_grant (by simp [hk]), ownerOf?_afterTurn]
    split
    · next hml => simp [hml, ownerOf?, hk, hfree, Ne.symm hu]
    · rfl
  cases o with
  | sleep => exact h.keep rfl (Nat.le_refl _) id
  | goto s' point =>
    have hc : Change sys.state (some t) s' := hc
    have hhanded := handedOver_goto (w := w) hcall ho
    have hload : ∀ {a}, w.load Instruction.isOrdered (sys.apply (.unit t) ph.operation
        (.goto s' point)) t + a ≤ w.load Instruction.isOrdered sys t →
        w.dueSteps (sys.apply (.unit t) ph.operation (.goto s' point)) + a ≤ w.dueSteps sys :=
      due_apply_unit hinv.sound hsubmits hc ht
    by_cases hretires : ph = .awaitRetirement
    · subst hretires
      have halive := (hcall ▸ hinv.placed (.unit t)).alive rfl
      cases ho with
      | retired slot hslot =>
        have hless : w.dueSteps (sys.apply (.unit t) Phase.awaitRetirement.operation
            (.goto (sys.state.afterRetirement t slot) (.thread t (.check .leave)))) + 1 ≤
              w.dueSteps sys :=
          due_retired hinv.sound hc halive ht
        exact h.complete (round_afterRetirement slot) (by omega)
    · have hdue := hload (a := 0) (load_le rfl fun halive => hc.alive hinv.sound halive)
      by_cases hround : s'.round = sys.state.round
      · exact h.keep hround (by omega) (ho.idle hinv.sound hretires hround)
      · rcases hc.round_eq with hsame | ⟨hnext, -, -, hevents⟩
        · exact absurd hsame hround
        · exact h.begin hnext (by omega)
            (fun hbegun => horderly.not_idle_of_closing hreach hformed heligible hs hbegun hround)
            (.of_begun (Recorded.of_reachable hreach).chronicle hnext hevents)
  | pause s' point => cases ho
  | reply s' r =>
    cases ho with
    | turn slot | refused _ slot | overflowed _ slot =>
      exact h.take hengaged hinv hcall rfl hop hc (round_afterTurn slot) fun u l _ => by
        rw [ownerOf?_afterTurn]
    | staged req slot rounds =>
      exact h.take hengaged hinv hcall rfl hop hc (round_afterTurn slot) fun u l _ => by
        rw [← ownerOf?_afterTurn (s := sys.state) (t := t) (m := l) slot]
        rfl
    | granted l k slot hslot hhead hk hnobody =>
      exact h.take hengaged hinv hcall rfl hop hc (round_afterTurn slot) fun u m hu =>
        hfree hk hnobody slot u m hu
    | handed l => exact h.leave hengaged hinv hcall hop (.inr ⟨l, rfl⟩)
    | left =>
      refine h.leave hengaged hinv hcall hop (.inl (handed_eq_zero fun l hl => ?_))
      rw [System.operation?, hcall] at hl
      cases hl

end Thread

/-! ### Runs -/

/-- What holds in all runs under the discipline. -/
structure Tame (w : Agenda) (submitter : Nat → Nat) (sys : System) : Prop where
  under : System.ReachableUnder w.config w.eligible sys
  orderly : Orderly sys
  engaged : w.Engaged submitter sys
  paced : w.Paced sys

namespace Tame

lemma invariant (h : w.Tame submitter sys) : Invariant sys := .of_reachable h.under.reachable

/-- Every step under the discipline keeps it, if everybody may become a primary. -/
theorem step (h : w.Tame submitter sys) (heligible : ∀ t, w.eligible t = true)
    (hstep : w.Disciplined submitter sys sys') : w.Tame submitter sys' := by
  have hinv := h.invariant
  have hformed := (Selective.of_reachable h.under).formed
  obtain ⟨start, hstart, hpath⟩ := h.under
  obtain ⟨m, -, hcareful, hm, hstaged⟩ := id hstep
  refine ⟨⟨start, hstart, hpath.tail ⟨m, hm⟩⟩,
    h.orderly.step hinv hformed heligible hcareful hm hstaged, h.engaged.step hinv hstep, ?_⟩
  cases h.engaged.undertaking hinv hstep with
  | call t o hinside hidle halive ho => exact h.paced.call h.engaged hinv hidle halive rfl ho
  | stretch t ph o hinside hcall hop ho =>
    exact h.paced.stretch h.engaged hinv hcall h.under.reachable h.orderly hformed heligible hop ho
      ⟨w.eligible, m, hm⟩
  | submit i hinside hi hidle hanswered =>
    have hdue : w.dueSteps (sys.apply (.client (submitter i)) (.submit (.scripted i))
        (.goto sys.state (.submission (.enrol (.scripted i) .answer)))) ≤ w.dueSteps sys :=
      due_apply_client rfl fun t ht => ht
    have hhanded : w.handedOver (sys.apply (.client (submitter i)) (.submit (.scripted i))
        (.goto sys.state (.submission (.enrol (.scripted i) .answer)))) = w.handedOver sys :=
      Finset.sum_congr rfl fun t _ => handed_apply_of_ne (by simp) fun l => .rfl
    exact h.paced.keep rfl (by omega) id
  | intake i p o hinside hi hcall hanswered hafter ho =>
    exact h.paced.client h.engaged hinv hi hcall hanswered hafter ho
  | enter a => exact h.paced.keep rfl (Nat.le_refl _) id

/-- No more rounds begin than there are units and ordered steps, and one more. -/
lemma round_le (h : w.Tame submitter sys) :
    sys.state.round ≤ 1 + w.units.length + w.orderedSteps := by
  have hhanded : w.handedOver sys ≤ w.dueSteps sys := h.engaged.handedOver_le_due
  rcases h.paced with h | ⟨-, -, h⟩ <;> omega

end Tame

/-- In the beginning everything is due. -/
lemma due_of_untouched {p : Instruction → Bool} {cost : Nat} (h : Untouched sys) :
    w.due p cost sys = w.units.flatten.countP p + w.units.length * cost := by
  have hload : ∀ t, w.load p sys ⟨t⟩ = 0 := fun t => by
    simp [load, h.returns, todo, isAlive, h.records]
  have hunsent : ∀ i, w.unsent p cost sys i = (w.routine i).countP p + cost := fun i => by
    simp [unsent, h.returns, answered]
  simp only [due, hload, hunsent, routine, Finset.sum_const_zero, Nat.zero_add]
  induction w.units with
  | nil => simp
  | cons r units ih =>
    rw [List.length_cons, Finset.sum_range_succ']
    simp only [List.getD_cons_succ, ih, List.flatten_cons, List.countP_append,
      List.getD_cons_zero, Nat.succ_mul]
    omega

lemma Tame.of_start (h : w.start? = some sys) : w.Tame submitter sys := by
  have hstart := untouched_of_start h
  have howner : ∀ l, sys.state.ownerOf? l = none := fun l => by
    rw [ownerOf?]
    cases hk : sys.state.lock? l with
    | none => rfl
    | some k =>
      rw [hstart.free l k hk]
      rfl
  refine ⟨System.reachableUnder_of_run? h,
    .of_unowned howner (Nat.le_of_eq (by rw [hstart.staged])),
    ⟨fun t call hcall => ?_, fun t ht => ?_, fun n call hcall => ?_, ?_⟩, .inl ?_⟩
  · cases (hstart.calls _).symm.trans hcall
  · simp [hstart.calls] at ht
  · cases (hstart.calls _).symm.trans hcall
  · have hone : ∀ i, unnumbered submitter sys i = 1 := fun i => by
      rw [unnumbered, stage_of_idle (by simp [hstart.returns, answered]) (hstart.calls _)]
      rfl
    simp [hone, hstart.nextThread]
  · rw [hstart.round, dueSteps, due_of_untouched hstart, orderedSteps]
    omega

end Agenda

end RoundScheduler
