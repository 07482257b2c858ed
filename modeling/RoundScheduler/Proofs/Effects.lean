import RoundScheduler.Proofs.Places

/-!
# What the stretches of an operation change

Every stretch makes one of the changes of `State.Change`, provided that the state agrees with the
place where it happens, and it leaves the state in agreement with the place where its agent goes.
The three kinds of stretches are treated one after the other: those of threads, the calls of
operations, and those of submitters.
-/

namespace RoundScheduler

open State

variable {s s' : State} {t u : ThreadId} {a : Agent} {op : Operation} {w : Option ThreadId}
  {eligible : ThreadId → Bool} {ph : Phase} {o : Outcome}

/-! ### Threads -/

/-- The state agrees with the place of a thread that fills a round: it goes through the list in
order, and whoever it chose stands in the part that it has seen. -/
structure State.Filling (s : State) (index : Nat) (plan : RoundConfig) : Prop where
  round : s.round ≠ 0
  primaries : plan.primaries = s.live.primaries
  index_le : index ≤ s.threadList.length
  seen : ∀ p ∈ s.primaries, p ∈ s.threadList.take index

namespace State

/-- The thread that is looked at next was not chosen yet. -/
lemma Filling.not_mem {index : Nat} {plan : RoundConfig} (h : s.Filling index plan)
    (hroster : s.Roster) (ht : s.threadList[index]? = some t) : t ∉ s.primaries := by
  intro hmem
  obtain ⟨i, hi, hget⟩ := List.mem_take_iff_getElem.mp (h.seen t hmem)
  obtain ⟨hlt, hget'⟩ := List.getElem?_eq_some_iff.mp ht
  have hne : i = index := (List.getElem_inj hroster.list_nodup).mp (hget.trans hget'.symm)
  omega

/-- Whoever is alive has not retired. -/
lemma hasTerminated_of_isAlive (h : s.isAlive t = true) : s.hasTerminated t = false := by
  obtain ⟨r, hr, -, hterminated⟩ := exists_record_of_isAlive h
  simp [hasTerminated, hr, hterminated]

end State

/-- What a thread does at a place is one of the listed changes. -/
theorem Stretch.change (h : s.Sound)
    (hplaced : Placed s (.unit t) (some ⟨ph.operation, .thread t ph⟩))
    (hfilling : ∀ index plan k, ph = .fill index plan k → s.Filling index plan)
    (ho : Stretch eligible s t ph o) : State.Change s (some t) (o.state s) := by
  have hpoised : s.Poised t (some ph) := hplaced.poised
  cases ho with
  | bootstrap p hround => exact .bootstrap hround
  | finished p slot hslot hout => exact .finish t slot hslot hout
  | notNext p slot hslot hin hhead => exact .awaitTurn t slot hslot hin hhead
  | turn slot hslot hhead => exact .turn t slot hslot hhead
  | granted l k slot hslot hhead hk hfree => exact .grant t slot l k hslot hhead hk hfree
  | queued l k slot hslot hhead hk howned =>
    exact .enqueue t slot l k hslot hhead hk howned (hpoised.asking l k rfl hk)
      (hpoised.unflagged rfl rfl rfl).linked
  | staged r slot c hslot hhead hc => exact .stage t slot _ _ c hslot hhead hc
  | refused r slot e hslot hhead he => exact .turn t slot hslot hhead
  | overflowed r slot o hslot hhead ho => exact .turn t slot hslot hhead
  | closed k hfull hstuck =>
    have hround : s.round ≠ 0 := fun hround => by
      have hempty := h.seating.unbegun hround
      have hpositive := h.seating.positive
      rw [hempty] at hfull
      exact absurd hfull (Nat.not_le.mpr hpositive)
    exact .next hround hfull hstuck
  | chosen index plan k u r hlen hu hr hterminated heligible =>
    have hfill := hfilling index plan k rfl
    obtain ⟨r', hr', hs⟩ := h.roster.exists_record (List.mem_of_getElem? hu)
    have halive : s.isAlive u = true := by
      cases hr.symm.trans hr'
      simp [State.isAlive, hr, hs, hterminated]
    exact .choose u hfill.round (hfill.primaries ▸ hlen) halive (hfill.not_mem h.roster hu)
  | filled index plan k hlen =>
    have hfill := hfilling index plan k rfl
    exact .start plan.order hfill.round (hfill.primaries ▸ hlen)
  | bootstrapRetirement hround => exact .bootstrap hround
  | retired slot hslot =>
    exact .retire t slot hslot (State.hasTerminated_of_isAlive (hplaced.alive rfl))
      (hpoised.unflagged rfl rfl rfl).waiting
  | _ => exact .stay

/-- A stretch creates and drops no locks. -/
lemma Stretch.lock?_isSome (ho : Stretch eligible s t ph o) (l : LockId) :
    ((o.state s).lock? l).isSome = (s.lock? l).isSome := by
  cases ho <;> simp [Outcome.state, lock?_grant, lock?_enqueue, lock?_nextRound]

namespace State

/-- A change that leaves the flag of those who finished leaves them finished or not. -/
lemma isFinished_of_map {g : ThreadRecord → ThreadRecord} (h : s'.record? t = (s.record? t).map g)
    (hg : ∀ r, (g r).finished = r.finished) : s'.isFinished t = s.isFinished t := by
  rw [isFinished, h, isFinished]
  cases s.record? t <;> simp [hg]

/-- A change that leaves the flag of those who wait for a turn leaves them waiting or not. -/
lemma isWaiting_of_map {g : ThreadRecord → ThreadRecord} (h : s'.record? t = (s.record? t).map g)
    (hg : ∀ r, (g r).waitingForTurn = r.waitingForTurn) : s'.isWaiting t = s.isWaiting t := by
  rw [isWaiting, h, isWaiting]
  cases s.record? t <;> simp [hg]

/-- A change that leaves the flags of starts and retirements leaves who is alive. -/
lemma isAlive_of_map {g : ThreadRecord → ThreadRecord} (h : s'.record? t = (s.record? t).map g)
    (hg : ∀ r, (g r).started = r.started ∧ (g r).terminated = r.terminated) :
    s'.isAlive t = s.isAlive t := by
  rw [isAlive, h, isAlive]
  cases s.record? t <;> simp [hg]

/-- Nobody has flags at the start of a round. -/
lemma Cleared.unflagged (h : Cleared s) (hkeys : s.records.keys.Nodup) :
    Unflagged s.beginRound t := by
  have hclear : ∀ r, s.beginRound.record? t = some r →
      r.finished = false ∧ r.waitingForTurn = false ∧ r.enqueued = none := fun r hr =>
    have hr := h.record?_beginRound hkeys hr
    ⟨hr.2.1, hr.2.2.1, hr.2.2.2.1⟩
  constructor
  · cases hr : s.beginRound.record? t with
    | none => simp [isFinished, hr]
    | some r => simp [isFinished, hr, hclear r hr]
  · cases hr : s.beginRound.record? t with
    | none => simp [isWaiting, hr]
    | some r => simp [isWaiting, hr, hclear r hr]
  · cases hr : s.beginRound.record? t with
    | none => simp [linkOf?, hr]
    | some r => simp [linkOf?, hr, hclear r hr]

/-- A thread with the same record has no flag if it had none. -/
lemma Unflagged.congr (h : Unflagged s t) (hrecord : s'.record? t = s.record? t) :
    Unflagged s' t where
  finished := by rw [isFinished, hrecord]; exact h.finished
  waiting := by rw [isWaiting, hrecord]; exact h.waiting
  linked := by rw [linkOf?, hrecord]; exact h.linked

/-- A thread without flags retires without the flags of a round. -/
lemma Unflagged.afterRetirement (h : Unflagged s t) (slot : Slot) :
    Unflagged (s.afterRetirement t slot) t where
  finished := (isFinished_of_map (record?_afterRetirement slot) fun _ => rfl).trans h.finished
  waiting := by
    have hwaiting := h.waiting
    rw [isWaiting, record?_afterRetirement]
    rw [isWaiting] at hwaiting
    cases hr : s.record? t with
    | none => rfl
    | some r => simpa [hr] using fun _ => by simpa [hr] using hwaiting
  linked := (linkOf?_of_map (record?_afterRetirement slot) fun _ => rfl).trans h.linked

/-- A turn sets no flag of a thread. -/
lemma calm_afterTurn (slot : Slot) : Calm s (s.afterTurn t slot) u :=
  .of_map (record?_afterTurn slot) (fun r => by constructor <;> grind) fun m k' hk' howner =>
    .inl ⟨k', (lock?_afterTurn slot).symm.trans hk', howner⟩

/-- To choose a primary sets no flag that would stop a thread. -/
lemma calm_choose : Calm s (s.choose t) u :=
  .of_map record?_choose (fun r => by constructor <;> grind) fun _ k' hk' howner =>
    .inl ⟨k', hk', howner⟩

/-- The record of a start sets no flag. -/
lemma calm_recordStart (order : List Slot) : Calm s (s.recordStart order) u :=
  .of_map Option.map_id'.symm .refl fun _ k' hk' howner => .inl ⟨k', hk', howner⟩

/-- Without a change nobody sees one. -/
lemma calm_refl (s : State) (u : ThreadId) : Calm s s u :=
  .of_map Option.map_id'.symm .refl fun _ k' hk' howner => .inl ⟨k', hk', howner⟩

/-! ### Flags that a thread sets on its own behalf -/

/-- Whoever finishes stays alive. -/
lemma isAlive_finish : (s.finish t).isAlive u = s.isAlive u :=
  isAlive_of_map record?_finish fun _ => ⟨rfl, rfl⟩

/-- Whoever waits for a turn stays alive. -/
lemma isAlive_awaitTurn : (s.awaitTurn t).isAlive u = s.isAlive u :=
  isAlive_of_map record?_awaitTurn fun _ => ⟨rfl, rfl⟩

/-- Whoever queues stays alive. -/
lemma isAlive_enqueue {l : LockId} : (s.enqueue l t).isAlive u = s.isAlive u :=
  isAlive_of_map record?_enqueue fun _ => ⟨rfl, rfl⟩

/-- A thread may be finished where it is about to look at the round before it waits for the end. -/
lemma Unflagged.poised_finish (h : Unflagged s t) {p : Purpose}
    (hasking : Poised s t (some (.awaitPrimary p))) :
    Poised (s.finish t) t (some (.check (.awaitRoundEnd p))) where
  finished _ := rfl
  waiting hw := by
    rw [isWaiting_of_map record?_finish fun _ => rfl, h.waiting] at hw
    cases hw
  linked l hl := by
    rw [linkOf?_of_map record?_finish fun _ => rfl, h.linked] at hl
    cases hl
  asking := hasking.asking

/-- A thread may wait for its turn where it is about to look at the round before it does so. -/
lemma Unflagged.poised_awaitTurn (h : Unflagged s t) {p : Purpose}
    (hasking : Poised s t (some (.awaitPrimary p))) :
    Poised (s.awaitTurn t) t (some (.check (.awaitTurn p))) where
  finished hf := by
    rw [isFinished_of_map record?_awaitTurn fun _ => rfl, h.finished] at hf
    cases hf
  waiting _ := rfl
  linked l hl := by
    rw [linkOf?_of_map record?_awaitTurn fun _ => rfl, h.linked] at hl
    cases hl
  asking := hasking.asking

/-- A thread may be in a queue where it is about to look at the round before it waits there. -/
lemma Unflagged.poised_enqueue (h : Unflagged s t) (l : LockId) :
    Poised (s.enqueue l t) t (some (.check (.awaitHandOver l))) where
  finished hf := by
    rw [isFinished_of_map record?_enqueue fun _ => rfl, h.finished] at hf
    cases hf
  waiting hw := by
    rw [isWaiting_of_map record?_enqueue fun _ => rfl, h.waiting] at hw
    cases hw
  linked m hm := by
    obtain ⟨r', hr', hlinked⟩ := linkOf?_eq_some_iff.mp hm
    obtain ⟨r, hr, rfl⟩ := Option.map_eq_some_iff.mp (record?_enqueue.symm.trans hr')
    simpa [Phase.queue?] using hlinked
  asking _ _ hp := by cases hp

/-- The owner of the lock for which a thread waits is in no queue. -/
lemma Poised.unflagged_of_owner (hpoised : Poised s t (some (.awaitHandOver l))) (h : s.Sound)
    {k : LockState} (hk : s.lock? l = some k) (howner : k.owner = some t) : Unflagged s t := by
  refine ⟨hpoised.not_finished rfl, hpoised.not_waiting rfl, ?_⟩
  refine Option.eq_none_iff_forall_ne_some.mpr fun m hm => ?_
  -- The queue of the lock would hold its owner.
  obtain rfl : l = m := Option.some_inj.mp (hpoised.linked m hm)
  obtain ⟨k', hk', hmem⟩ := (h.queues.linked t l).mp hm
  cases hk.symm.trans hk'
  exact h.queues.not_queued l k t hk howner hmem

end State

/-! ### Places that ask for the same step -/

/-- What goes on after the round was filled asks for the same step all the while. -/
lemma AfterFill.purpose?_fill (k : AfterFill) (index index' : Nat) (plan plan' : RoundConfig) :
    (Phase.fill index plan k).purpose? = (Phase.fill index' plan' k).purpose? := by
  cases k with
  | recheck k => cases k <;> rfl
  | _ => rfl

/-- Whether somebody fills a round on the way out does not depend on how far the round is. -/
lemma AfterFill.leaving_fill (k : AfterFill) (index index' : Nat) (plan plan' : RoundConfig) :
    (Phase.fill index plan k).leaving = (Phase.fill index' plan' k).leaving := by
  cases k with
  | recheck k => cases k <;> rfl
  | _ => rfl

/-- After a fill a thread has the purpose that it had during the fill. -/
lemma AfterFill.purpose?_phase (k : AfterFill) (index : Nat) (plan : RoundConfig) :
    k.phase.purpose? = (Phase.fill index plan k).purpose? := by
  cases k with
  | recheck k => cases k <;> rfl
  | _ => rfl

/-- After a fill a thread is on the way out if it was during the fill. -/
lemma AfterFill.leaving_phase (k : AfterFill) (index : Nat) (plan : RoundConfig) :
    k.phase.leaving = (Phase.fill index plan k).leaving := by
  cases k with
  | recheck k => cases k <;> rfl
  | _ => rfl

/-- A thread without flags goes on to a place that asks for the same step. -/
lemma Placed.move (hplaced : Placed s (.unit t) (some ⟨ph.operation, .thread t ph⟩))
    (hcalm : Calm s s' t) (hflags : Unflagged s' t) {ph' : Phase}
    (hpurpose : ph'.purpose? = ph.purpose?) (hleaving : ph'.leaving = ph.leaving)
    (hoperation : ph'.operation = ph.operation)
    (hlocks : ∀ l ∈ ph.operation.locks, (s'.lock? l).isSome) :
    Placed s' (.unit t) (some ⟨ph.operation, .thread t ph'⟩) := by
  obtain ⟨-, -, hpoised, halive, -⟩ := hplaced.of_thread
  have hpoised' : Poised s' t (some ph') :=
    hflags.poised fun l k' hl => hpoised.asking_calm hcalm l k' (hpurpose.symm.trans hl)
  have halive' : ph'.leaving = false → s'.isAlive t = true := fun hph =>
    hcalm.alive (halive (hleaving.symm.trans hph))
  have hthread := Placed.thread t ph' hpoised' halive' (hoperation.symm ▸ hlocks)
  rw [hoperation] at hthread
  exact hthread

/-- What a thread does leaves the state in agreement with its call. -/
theorem Stretch.placed (h : s.Sound)
    (hplaced : Placed s (.unit t) (some ⟨ph.operation, .thread t ph⟩))
    (ho : Stretch eligible s t ph o) :
    Placed (o.state s) (.unit t) (o.call? (some ⟨ph.operation, .thread t ph⟩) ph.operation) := by
  obtain ⟨-, -, hpoised, halive, hlocks⟩ := hplaced.of_thread
  have hlocks' : ∀ l ∈ ph.operation.locks, ((o.state s).lock? l).isSome := fun l hl => by
    rw [ho.lock?_isSome]
    exact hlocks l hl
  cases ho with
  | bootstrap p hround | bootstrapRetirement hround =>
    have hbegin := calm_beginRound (u := t) h.roster
    have hflags := (hpoised.unflagged rfl rfl rfl).calm hbegin
    exact hplaced.move hbegin hflags rfl rfl rfl hlocks'
  | entered | enteredRetirement =>
    exact hplaced.move (calm_refl s t) (hpoised.unflagged rfl rfl rfl) rfl rfl rfl hlocks
  | finished p slot hslot hout =>
    exact .thread t (.check (.awaitRoundEnd p))
      ((hpoised.unflagged rfl rfl rfl).poised_finish hpoised)
      (fun _ => isAlive_finish.trans (halive rfl)) hlocks'
  | notNext p slot hslot hin hhead =>
    exact .thread t (.check (.awaitTurn p))
      ((hpoised.unflagged rfl rfl rfl).poised_awaitTurn hpoised)
      (fun _ => isAlive_awaitTurn.trans (halive rfl)) hlocks'
  | turn slot | refused r slot | overflowed r slot =>
    exact .idle t (((hpoised.unflagged rfl rfl rfl).calm (calm_afterTurn slot)).poised_of_free rfl)
  | granted l k slot hslot hhead hk hfree =>
    have hflags := (hpoised.unflagged rfl rfl rfl).calm (calm_afterTurn (t := t) slot)
    have hflags' : Unflagged ((s.afterTurn t slot).grant l t) t := hflags.congr rfl
    exact .idle t (hflags'.poised_of_free rfl)
  | queued l k slot hslot hhead hk howned =>
    have hcalm := calm_afterTurn (s := s) (t := t) (u := t) slot
    have hflags := (hpoised.unflagged rfl rfl rfl).calm hcalm
    exact .thread t (.check (.awaitHandOver l)) (hflags.poised_enqueue l)
      (fun _ => isAlive_enqueue.trans (hcalm.alive (halive rfl))) hlocks'
  | staged r slot c hslot hhead hc =>
    have hflags := (hpoised.unflagged rfl rfl rfl).calm (calm_afterTurn (t := t) slot)
    have hflags' : Unflagged ((s.afterTurn t slot).staging t (r.resolve s.staged).1
      (r.resolve s.staged).2 c) t := hflags.congr rfl
    exact .idle t (hflags'.poised_of_free rfl)
  | sleepForSeat | sleepForEnd | sleepForTurn | sleepInQueue | runOut | sleepForRetirement =>
    exact hplaced
  | ended p r hr hfinished =>
    have hflags : Unflagged s t :=
      ⟨by simpa [isFinished, hr] using hfinished, hpoised.not_waiting rfl, hpoised.not_linked rfl⟩
    exact hplaced.move (calm_refl s t) hflags rfl rfl rfl hlocks
  | woken p r hr hwaiting =>
    have hflags : Unflagged s t :=
      ⟨hpoised.not_finished rfl, by simpa [isWaiting, hr] using hwaiting, hpoised.not_linked rfl⟩
    exact hplaced.move (calm_refl s t) hflags rfl rfl rfl hlocks
  | handed l k hk howner =>
    exact .idle t ((hpoised.unflagged_of_owner h hk howner).poised_of_free rfl)
  | retry l k r hk howner hr hqueued =>
    have hflags : Unflagged s t :=
      ⟨hpoised.not_finished rfl, hpoised.not_waiting rfl, by simp [linkOf?, hr, hqueued]⟩
    refine .thread t (.enter (.lock l)) (hflags.poised fun m k' hm hk' => ?_) halive hlocks
    obtain rfl : l = m := by simpa [Phase.purpose?] using hm
    cases hk.symm.trans hk'
    exact howner
  | stillOpen k ph' hk hopen =>
    -- The thread keeps its flag, since it is about to wait for what the flag says.
    cases k with
    | awaitRoundEnd p =>
      cases hk
      exact .thread t (.awaitRoundEnd p) ⟨hpoised.finished, hpoised.waiting, hpoised.linked,
        hpoised.asking⟩ halive hlocks
    | awaitTurn p =>
      cases hk
      exact .thread t (.awaitTurn p) ⟨hpoised.finished, hpoised.waiting, hpoised.linked,
        hpoised.asking⟩ halive hlocks
    | awaitHandOver l =>
      cases hk
      exact .thread t (.awaitHandOver l) ⟨hpoised.finished, hpoised.waiting, hpoised.linked,
        hpoised.asking⟩ halive hlocks
    | leave => cases hk
  | left hopen => exact .idle t ((hpoised.unflagged rfl rfl rfl).poised_of_free rfl)
  | closed k hfull hstuck =>
    have hflags : Unflagged s.nextRound t :=
      (h.seating.closeRound_cleared h.roster).unflagged h.roster.closeRound.keys_nodup
    exact hplaced.move (calm_nextRound h.roster) hflags
      ((AfterFill.recheck k).purpose?_phase 0 s.staged).symm
      ((AfterFill.recheck k).leaving_phase 0 s.staged).symm rfl hlocks'
  | skipped index plan k u r hlen hu hr hskip =>
    exact hplaced.move (calm_refl s t) (hpoised.unflagged rfl rfl rfl) (k.purpose?_fill ..)
      (k.leaving_fill ..) rfl hlocks
  | chosen index plan k u r hlen hu hr hterminated heligible =>
    have hflags := (hpoised.unflagged rfl rfl rfl).calm (calm_choose (t := u))
    exact hplaced.move calm_choose hflags (k.purpose?_fill ..) (k.leaving_fill ..) rfl hlocks'
  | filled index plan k hlen =>
    have hcalm := calm_recordStart (s := s) (u := t) plan.order
    have hflags := (hpoised.unflagged rfl rfl rfl).calm hcalm
    exact hplaced.move hcalm hflags (k.purpose?_phase index plan) (k.leaving_phase index plan)
      (by cases k <;> rfl) hlocks'
  | retired slot hslot =>
    have hflags := (hpoised.unflagged rfl rfl rfl).afterRetirement slot
    exact .thread t (.check .leave) (hflags.poised_of_free rfl) (fun hph => by cases hph) hlocks'

/-! ### Calls -/

/-- What the call of an operation does at once is one of the listed changes. -/
theorem Opening.change (ho : Opening s a op o) : Change s w (o.state s) := by
  cases ho with
  | unlinked a l t hlink => exact .unlink t l hlink
  | forgotten a l t k hk hlink => exact .forget t l hlink
  | released t l k hk howner hqueue => exact .release t l k hk howner hqueue
  | handedOver t l k next rest hk howner hqueue => exact .handOver t l k next rest hk howner hqueue
  | _ => exact .stay

/-- The call of an operation creates and drops no locks. -/
lemma Opening.lock?_isSome (ho : Opening s a op o) (l : LockId) :
    ((o.state s).lock? l).isSome = (s.lock? l).isSome := by
  cases ho <;> simp [Outcome.state, lock?_detach, lock?_forget, lock?_release, lock?_handOver]

/-- The place at which an operation begins leaves the state in agreement with its call. -/
theorem Opening.placed (h : s.Sound) (hplaced : Placed s a none)
    (halive : ∀ t, a = .unit t → s.isAlive t = true)
    (hlocks : ∀ l ∈ op.locks, (s.lock? l).isSome) (ho : Opening s a op o) :
    Placed (o.state s) a (o.call? none op) := by
  have hidle : Placed (o.state s) a none :=
    hplaced.calm (fun t _ => (ho.change (w := none)).calm h (by simp)) (by simp)
  have hbegin : ∀ (t : ThreadId) (ph : Phase), a = .unit t → ph.operation = op →
      (s.Unflagged t → s.Poised t (some ph)) → Placed s a (some ⟨op, .thread t ph⟩) := by
    rintro t ph rfl rfl hpoised
    have hflags := hplaced.poised.unflagged rfl rfl rfl
    exact .thread t ph (hpoised hflags) (fun _ => halive t rfl) hlocks
  have hsubmit : ∀ p, op.submits = true → Placed s a (some ⟨op, .submission p⟩) := by
    intro p hop
    cases a with
    | unit t => exact .submitter t op p hop hplaced.poised (halive t rfl)
    | client n => exact .client n op p hop
  cases ho with
  | submit w => exact hsubmit _ rfl
  | fill w => exact hsubmit _ rfl
  | turn t => exact hbegin t (.enter .turn) rfl rfl fun hflags => hflags.poised_of_free rfl
  | lock t l k hk howner =>
    refine hbegin t (.enter (.lock l)) rfl rfl fun hflags => hflags.poised fun m k' hm hk' => ?_
    obtain rfl : l = m := by simpa [Phase.purpose?] using hm
    exact Option.some_inj.mp (hk.symm.trans hk') ▸ howner
  | reconfigure t r =>
    exact hbegin t (.enter (.reconfigure r)) rfl rfl fun hflags => hflags.poised_of_free rfl
  | retire t => exact hbegin t .enterRetirement rfl rfl fun hflags => hflags.poised_of_free rfl
  | _ => exact hidle

/-! ### Submitters -/

/-- What a submitter does at a place is an arrival or nothing, if its thread did not start yet and
no longer waits when it is to be listed. -/
theorem Intake.arrival {c : Config} {p : Submission}
    (hheld : ∀ t, p.thread? = some t → s.started? t = some false)
    (hqueue : ∀ t work k, p = .list t work k → t ∉ s.admissionQueue) (ho : Intake c s p o) :
    o.state s = s ∨ Arrival s (o.state s) := by
  have hlist : ∀ t work k, p = .list t work k → Arrival s (s.list t work) :=
    fun t work k hp => .list t work (hheld t (hp ▸ rfl)) (hqueue t work k hp)
  cases ho with
  | blocked work k hfull => exact .inr .block
  | passed work k hfull => exact .inr .enrol
  | listed t work hnames => exact .inr (hlist t work _ rfl)
  | listedToCount t work hnames => exact .inr (hlist t work _ rfl)
  | listedWithMore t work n first hnames => exact .inr (hlist t work _ rfl)
  | listedLast t work first hnames => exact .inr (hlist t work _ rfl)
  | _ => exact .inl rfl

/-- A submitter creates and drops no locks. -/
lemma Intake.lock?_eq {c : Config} {p : Submission} (ho : Intake c s p o) (l : LockId) :
    (o.state s).lock? l = s.lock? l := by
  cases ho <;> rfl

/-- What is known of an agent that is at the place of a submitter. -/
lemma Placed.of_submission {p : Submission} (h : Placed s a (some ⟨op, .submission p⟩)) :
    op.submits = true ∧ Placed s a none ∧ ∀ p', Placed s a (some ⟨op, .submission p'⟩) := by
  obtain ⟨c, hc⟩ : ∃ c : Option Call, c = some ⟨op, .submission p⟩ := ⟨_, rfl⟩
  rw [← hc] at h
  cases h with
  | idle => cases hc
  | thread => cases hc
  | submitter t op p hop hpoised halive =>
    cases hc
    exact ⟨hop, .idle t hpoised, fun p' => .submitter t op p' hop hpoised halive⟩
  | outside => cases hc
  | client n op p hop =>
    cases hc
    exact ⟨hop, .outside n, fun p' => .client n op p' hop⟩

/-- What a submitter does leaves the state in agreement with its call. -/
theorem Intake.placed {c : Config} {p : Submission}
    (hplaced : Placed s a (some ⟨op, .submission p⟩)) (hcalm : ∀ u, Calm s (o.state s) u)
    (ho : Intake c s p o) :
    Placed (o.state s) a (o.call? (some ⟨op, .submission p⟩) op) := by
  obtain ⟨-, hidle, hsubmission⟩ := hplaced.of_submission
  have hcalm : ∀ {call : Option Call}, Placed s a call → Placed (o.state s) a call := fun hp =>
    hp.calm (fun t _ => hcalm t) fun _ _ l _ hl => by rwa [ho.lock?_eq]
  cases ho with
  | listed | listedLast | unnamed | sufficient => exact hcalm hidle
  | _ => exact hcalm (hsubmission _)

end RoundScheduler
