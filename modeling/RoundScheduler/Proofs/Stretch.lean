import RoundScheduler.Proofs.State.Queues

/-!
# What happens at a place

An operation goes from place to place, and at each place one of a few things happens. As long as the
state is sound no look-up fails, so the possibilities can be listed: `Stretch` has one constructor
for each of them, with the facts under which it happens, and `Phase.stretch_step` says that the list
is complete. Later proofs go through this list and never look at how a place computes its outcome.
-/

namespace RoundScheduler

/-- A state that does not contradict itself. -/
structure State.Sound (s : State) : Prop where
  roster : s.Roster
  seating : s.Seating
  queues : s.Queues

/-! ### Where an operation goes on -/

/-- The operation that an ordered step is taken for. -/
def Purpose.operation : Purpose → Operation
  | turn => .turn
  | lock l => .lock l
  | reconfigure r => .reconfigure r

/-- The lock that a step asks for, if it does. -/
def Purpose.lock? : Purpose → Option LockId
  | lock l => some l
  | _ => none

/-- The place after a look at an open round; a thread that retired has none. -/
def AfterCheck.phase? : AfterCheck → Option Phase
  | awaitRoundEnd p => some (.awaitRoundEnd p)
  | awaitTurn p => some (.awaitTurn p)
  | awaitHandOver l => some (.awaitHandOver l)
  | leave => none

/-- The operation that goes on after a look at the round. -/
def AfterCheck.operation : AfterCheck → Operation
  | awaitRoundEnd p | awaitTurn p => p.operation
  | awaitHandOver l => .lock l
  | leave => .retire

/-- The place after a round was filled. -/
def AfterFill.phase : AfterFill → Phase
  | takeStep p => .awaitPrimary p
  | retire => .awaitRetirement
  | recheck k => .check k

/-- The operation that goes on after a round was filled. -/
def AfterFill.operation : AfterFill → Operation
  | takeStep p => p.operation
  | retire => .retire
  | recheck k => k.operation

namespace Phase

/-- The operation that a place belongs to. -/
def operation : Phase → Operation
  | enter p | awaitPrimary p | awaitRoundEnd p | awaitTurn p => p.operation
  | awaitHandOver l => .lock l
  | check k => k.operation
  | fill _ _ k => k.operation
  | enterRetirement | awaitRetirement => .retire

/-- Whether the thread at a place has retired already. -/
def leaving : Phase → Bool
  | check .leave | fill _ _ (.recheck .leave) => true
  | _ => false

end Phase

/-! ### The possibilities -/

section Stretch

variable (eligible : ThreadId → Bool) (s : State) (me : ThreadId)

/-- What can happen at a place of the thread `me`. -/
inductive Stretch : Phase → Outcome → Prop
  /-- The first ordered step starts the first round. -/
  | bootstrap (p : Purpose) (hround : s.round = 0) :
    Stretch (.enter p) (.goto s.beginRound (.thread me (.fill 0 s.staged (.takeStep p))))
  /-- There is a round already. -/
  | entered (p : Purpose) (hround : s.round ≠ 0) :
    Stretch (.enter p) (.goto s (.thread me (.awaitPrimary p)))
  /-- The thread is no primary. -/
  | sleepForSeat (p : Purpose) (hme : me ∉ s.primaries) : Stretch (.awaitPrimary p) .sleep
  /-- The thread has no steps left in the round. -/
  | finished (p : Purpose) (slot : Slot) (hslot : s.primaries[slot]? = some me)
    (hout : slot ∉ s.live.order) :
    Stretch (.awaitPrimary p) (.goto (s.finish me) (.thread me (.check (.awaitRoundEnd p))))
  /-- The next step belongs to another slot. -/
  | notNext (p : Purpose) (slot : Slot) (hslot : s.primaries[slot]? = some me)
    (hin : slot ∈ s.live.order) (hhead : s.live.order.head? ≠ some slot) :
    Stretch (.awaitPrimary p) (.goto (s.awaitTurn me) (.thread me (.check (.awaitTurn p))))
  /-- A step for its own sake. -/
  | turn (slot : Slot) (hslot : s.primaries[slot]? = some me)
    (hhead : s.live.order.head? = some slot) :
    Stretch (.awaitPrimary .turn) (.reply (s.afterTurn me slot) .done)
  /-- A step that acquires a free lock. -/
  | granted (l : LockId) (k : LockState) (slot : Slot) (hslot : s.primaries[slot]? = some me)
    (hhead : s.live.order.head? = some slot) (hk : s.lock? l = some k) (hfree : k.owner = none) :
    Stretch (.awaitPrimary (.lock l)) (.reply ((s.afterTurn me slot).grant l me) .done)
  /-- A step that asks for an owned lock. -/
  | queued (l : LockId) (k : LockState) (slot : Slot) (hslot : s.primaries[slot]? = some me)
    (hhead : s.live.order.head? = some slot) (hk : s.lock? l = some k) (howned : k.owner ≠ none) :
    Stretch (.awaitPrimary (.lock l))
      (.goto ((s.afterTurn me slot).enqueue l me) (.thread me (.check (.awaitHandOver l))))
  /-- A step that stages a configuration. -/
  | staged (r : Request) (slot : Slot) (c : RoundConfig) (hslot : s.primaries[slot]? = some me)
    (hhead : s.live.order.head? = some slot)
    (hc : RoundConfig.roundRobin (r.resolve s.staged).1 (r.resolve s.staged).2 = .ok c) :
    Stretch (.awaitPrimary (.reconfigure r))
      (.reply ((s.afterTurn me slot).staging me (r.resolve s.staged).1 (r.resolve s.staged).2 c)
        (.staged c.primaries))
  /-- A step for a configuration that describes no round. -/
  | refused (r : Request) (slot : Slot) (e : EmptyRound) (hslot : s.primaries[slot]? = some me)
    (hhead : s.live.order.head? = some slot)
    (he : RoundConfig.roundRobin (r.resolve s.staged).1 (r.resolve s.staged).2 =
      .error (.empty e)) :
    Stretch (.awaitPrimary (.reconfigure r))
      (.reply (s.afterTurn me slot) (.refused (.ofEmptyRound e)))
  /-- A step for a configuration that is too large to be built. -/
  | overflowed (r : Request) (slot : Slot) (o : Word.Overflow)
    (hslot : s.primaries[slot]? = some me) (hhead : s.live.order.head? = some slot)
    (ho : RoundConfig.roundRobin (r.resolve s.staged).1 (r.resolve s.staged).2 =
      .error (.overflow o)) :
    Stretch (.awaitPrimary (.reconfigure r))
      (.reply (s.afterTurn me slot) (.panicked (.overflow o)))
  /-- The round without steps for the thread goes on. -/
  | sleepForEnd (p : Purpose) (r : ThreadRecord) (hr : s.record? me = some r)
    (hfinished : r.finished = true) : Stretch (.awaitRoundEnd p) .sleep
  /-- The round without steps for the thread is over. -/
  | ended (p : Purpose) (r : ThreadRecord) (hr : s.record? me = some r)
    (hfinished : r.finished = false) :
    Stretch (.awaitRoundEnd p) (.goto s (.thread me (.awaitPrimary p)))
  /-- Nobody told the thread to stop waiting. -/
  | sleepForTurn (p : Purpose) (r : ThreadRecord) (hr : s.record? me = some r)
    (hwaiting : r.waitingForTurn = true) : Stretch (.awaitTurn p) .sleep
  /-- The thread was told to stop waiting. -/
  | woken (p : Purpose) (r : ThreadRecord) (hr : s.record? me = some r)
    (hwaiting : r.waitingForTurn = false) :
    Stretch (.awaitTurn p) (.goto s (.thread me (.awaitPrimary p)))
  /-- The thread was handed the lock. -/
  | handed (l : LockId) (k : LockState) (hk : s.lock? l = some k) (howner : k.owner = some me) :
    Stretch (.awaitHandOver l) (.reply s .done)
  /-- The thread is still in a queue. -/
  | sleepInQueue (l : LockId) (k : LockState) (r : ThreadRecord) (hk : s.lock? l = some k)
    (howner : k.owner ≠ some me) (hr : s.record? me = some r) (hqueued : r.enqueued.isSome) :
    Stretch (.awaitHandOver l) .sleep
  /-- The thread was taken out of the queue without being handed the lock. -/
  | retry (l : LockId) (k : LockState) (r : ThreadRecord) (hk : s.lock? l = some k)
    (howner : k.owner ≠ some me) (hr : s.record? me = some r) (hqueued : r.enqueued = none) :
    Stretch (.awaitHandOver l) (.goto s (.thread me (.enter (.lock l))))
  /-- The round is open. -/
  | stillOpen (k : AfterCheck) (ph : Phase) (hk : k.phase? = some ph)
    (hopen : s.primaries.length < s.live.primaries ∨ ∃ t ∈ s.primaries, s.canProgress t = true) :
    Stretch (.check k) (.goto s (.thread me ph))
  /-- The round is open, and the thread has retired. -/
  | left (hopen : s.primaries.length < s.live.primaries ∨
      ∃ t ∈ s.primaries, s.canProgress t = true) :
    Stretch (.check .leave) (.reply s .done)
  /-- The round is over. -/
  | closed (k : AfterCheck) (hfull : s.live.primaries ≤ s.primaries.length)
    (hstuck : ∀ t ∈ s.primaries, s.canProgress t = false) :
    Stretch (.check k) (.goto s.nextRound (.thread me (.fill 0 s.staged (.recheck k))))
  /-- There are not enough threads to fill the round. -/
  | runOut (index : Nat) (plan : RoundConfig) (k : AfterFill)
    (hlen : s.primaries.length < plan.primaries) (hindex : s.threadList.length ≤ index) :
    Stretch (.fill index plan k) .sleep
  /-- A thread that may not become a primary is passed over. -/
  | skipped (index : Nat) (plan : RoundConfig) (k : AfterFill) (t : ThreadId) (r : ThreadRecord)
    (hlen : s.primaries.length < plan.primaries) (ht : s.threadList[index]? = some t)
    (hr : s.record? t = some r) (hskip : r.terminated = true ∨ eligible t = false) :
    Stretch (.fill index plan k) (.goto s (.thread me (.fill (index + 1) plan k)))
  /-- A thread becomes a primary. -/
  | chosen (index : Nat) (plan : RoundConfig) (k : AfterFill) (t : ThreadId) (r : ThreadRecord)
    (hlen : s.primaries.length < plan.primaries) (ht : s.threadList[index]? = some t)
    (hr : s.record? t = some r) (hterminated : r.terminated = false)
    (heligible : eligible t = true) :
    Stretch (.fill index plan k) (.goto (s.choose t) (.thread me (.fill (index + 1) plan k)))
  /-- The round is filled. -/
  | filled (index : Nat) (plan : RoundConfig) (k : AfterFill)
    (hlen : plan.primaries ≤ s.primaries.length) :
    Stretch (.fill index plan k) (.goto (s.recordStart plan.order) (.thread me k.phase))
  /-- The first retirement starts the first round. -/
  | bootstrapRetirement (hround : s.round = 0) :
    Stretch .enterRetirement (.goto s.beginRound (.thread me (.fill 0 s.staged .retire)))
  /-- There is a round in which to retire. -/
  | enteredRetirement (hround : s.round ≠ 0) :
    Stretch .enterRetirement (.goto s (.thread me .awaitRetirement))
  /-- The thread that retires is no primary. -/
  | sleepForRetirement (hme : me ∉ s.primaries) : Stretch .awaitRetirement .sleep
  /-- The thread retires. -/
  | retired (slot : Slot) (hslot : s.primaries[slot]? = some me) :
    Stretch .awaitRetirement (.goto (s.afterRetirement me slot) (.thread me (.check .leave)))

end Stretch

/-! ### Nothing else can happen -/

namespace State

variable {s : State} {t : ThreadId}

/-- Records that are there may be required. -/
lemma requiring_eq {ts : List ThreadId} (h : ∀ t ∈ ts, (s.record? t).isSome) (k : Outcome) :
    s.requiring ts k = k := by
  have hnone : s.unrecorded? ts = none := by
    rw [unrecorded?, List.find?_eq_none]
    intro t ht
    simpa [← Option.isSome_iff_ne_none] using h t ht
  rw [requiring, hnone]

/-- Whoever is listed has a record. -/
lemma Roster.isSome_of_mem_list (h : Roster s) (ht : t ∈ s.threadList) : (s.record? t).isSome := by
  obtain ⟨r, hr, -⟩ := h.exists_record ht
  simp [hr]

/-- The start of a round finds the records that it needs, so it begins the round and the fill. -/
lemma Roster.startRound_eq (h : Roster s) (me : ThreadId) (k : AfterFill) :
    s.startRound me k = .goto s.beginRound (.thread me (.fill 0 s.staged k)) := by
  refine requiring_eq (fun t ht => ?_) _
  rcases List.mem_append.mp ht with ht | ht
  · exact h.isSome_of_mem_list ht
  · rw [isSome_record?_iff, h.waiting t ht]
    rfl

/-- Every primary has a record. -/
lemma Seating.isSome_of_mem (h : Seating s) (ht : t ∈ s.primaries) : (s.record? t).isSome := by
  obtain ⟨r, hr, -⟩ := (h.mem_iff t).mp ht
  simp [hr]

/-- The owner of the next step has a record. -/
lemma Seating.isSome_of_headOwner? (h : Seating s) (c : RoundConfig) :
    ∀ t ∈ (s.headOwner? c).toList, (s.record? t).isSome := by
  intro t ht
  rw [Option.mem_toList, headOwner?, Option.bind_eq_some_iff] at ht
  obtain ⟨slot, -, hslot⟩ := ht
  exact h.isSome_of_mem (List.mem_of_getElem? hslot)

/-- The owner of the next step takes it and does what it is for. -/
lemma Sound.attempt_eq (h : Sound s) (me : ThreadId) {slot : Slot} (p : Purpose)
    (hhead : s.live.order.head? = some slot) :
    s.attempt me slot p = (s.afterTurn me slot).serve me p := by
  have hsteps : s.live.hasStepsFor slot = true := by
    simpa [RoundConfig.hasStepsFor] using List.mem_of_mem_head? hhead
  have hheadSlot : s.live.head? = some slot := hhead
  rw [attempt, hsteps]
  simp only [Bool.not_true, Bool.false_eq_true, if_false, hheadSlot, if_true]
  exact requiring_eq (s := s.takeTurn me slot)
    (fun t ht => h.seating.isSome_of_headOwner? s.live.consume t ht) _

/-- A primary that retires goes on to look at the round. -/
lemma Sound.retire_eq (h : Sound s) (me : ThreadId) (slot : Slot) :
    s.retire me slot = .goto (s.afterRetirement me slot) (.thread me (.check .leave)) := by
  refine requiring_eq (fun t ht => ?_) _
  -- The notes and the flag of the retiring thread change nobody's having a record.
  have hhead : t ∈ (s.headOwner? (s.live.strip slot)).toList := by
    unfold noteHeldLocks at ht
    cases hl : s.locksOf me <;> rw [hl] at ht <;> exact ht
  have hsome := h.seating.isSome_of_headOwner? _ t hhead
  have hrecord : ((s.noteHeldLocks me).strip me slot).record? t =
      (s.record? t).map fun r => if t = me then { r with terminated := true } else r := by
    unfold noteHeldLocks
    cases s.locksOf me <;> exact record?_modifyRecord _
  rw [hrecord]
  simpa using hsome

end State

variable {eligible : ThreadId → Bool} {s : State} {me : ThreadId}

/-- What a step taken by the owner of the next one is used for. -/
lemma stretch_serve (h : s.Sound) {slot : Slot} (p : Purpose)
    (hslot : s.primaries[slot]? = some me) (hhead : s.live.order.head? = some slot)
    (hlocks : ∀ l ∈ p.operation.locks, (s.lock? l).isSome) :
    Stretch eligible s me (.awaitPrimary p) ((s.afterTurn me slot).serve me p) := by
  have hstaged : (s.afterTurn me slot).staged = s.staged := by rw [State.afterTurn_eq]
  cases p with
  | turn => exact .turn slot hslot hhead
  | lock l =>
    obtain ⟨k, hk⟩ :=
      Option.isSome_iff_exists.mp (hlocks l (by simp [Purpose.operation, Operation.locks]))
    by_cases hfree : k.owner = none
    · have hserve : (s.afterTurn me slot).serve me (.lock l) =
          .reply ((s.afterTurn me slot).grant l me) .done := by
        simp [State.serve, State.askForLock, State.withLock, hk, hfree]
      exact hserve ▸ .granted l k slot hslot hhead hk hfree
    · have hserve : (s.afterTurn me slot).serve me (.lock l) =
          .goto ((s.afterTurn me slot).enqueue l me) (.thread me (.check (.awaitHandOver l))) := by
        simp [State.serve, State.askForLock, State.withLock, hk, hfree]
      exact hserve ▸ .queued l k slot hslot hhead hk hfree
  | reconfigure r =>
    have hdivisor : (r.keepsSteps && decide (s.staged.primaries = 0)) = false := by
      have hpos := h.seating.staged.1
      simp [Nat.pos_iff_ne_zero.mp hpos]
    simp only [State.serve, State.stage, hstaged, hdivisor, Bool.false_eq_true, if_false]
    cases hc : RoundConfig.roundRobin (r.resolve s.staged).1 (r.resolve s.staged).2 with
    | ok c => exact .staged r slot c hslot hhead hc
    | error e =>
      cases e with
      | empty e => exact .refused r slot e hslot hhead hc
      | overflow o => exact .overflowed r slot o hslot hhead hc

/-- What a look at the round leads to. -/
lemma stretch_check (h : s.Sound) (k : AfterCheck) :
    Stretch eligible s me (.check k) (s.checkRound me k) := by
  have hproceed : s.primaries.length < s.live.primaries ∨
      (∃ t ∈ s.primaries, s.canProgress t = true) →
      Stretch eligible s me (.check k) (s.proceed me k) := by
    intro hopen
    cases k with
    | leave => exact .left hopen
    | _ => exact .stillOpen _ _ rfl hopen
  unfold State.checkRound
  split
  · next hlen => exact hproceed (.inl hlen)
  · next hlen =>
    rw [State.requiring_eq fun t ht => h.seating.isSome_of_mem ht]
    split
    · next hany => exact hproceed (.inr (List.any_eq_true.mp hany))
    · next hany =>
      rw [h.roster.closeRound.startRound_eq]
      exact .closed k (Nat.le_of_not_lt hlen) (by simpa using hany)

/-- What a thread that fills a round does. -/
lemma stretch_fill (h : s.Sound) (index : Nat) (plan : RoundConfig) (k : AfterFill) :
    Stretch eligible s me (.fill index plan k) (s.fillRound eligible me index plan k) := by
  unfold State.fillRound
  split
  · next hlen =>
    cases ht : s.threadList[index]? with
    | none => exact .runOut index plan k hlen (List.getElem?_eq_none_iff.mp ht)
    | some t =>
      obtain ⟨r, hr, hs⟩ := h.roster.exists_record (List.mem_of_getElem? ht)
      simp only [State.withRecord, hr, hs, Bool.not_true, Bool.false_eq_true, if_false]
      cases hterm : r.terminated with
      | true => exact .skipped index plan k t r hlen ht hr (.inl hterm)
      | false =>
        cases he : eligible t with
        | false => exact .skipped index plan k t r hlen ht hr (.inr he)
        | true => exact .chosen index plan k t r hlen ht hr hterm he
  · next hlen =>
    have hafter : (s.recordStart plan.order).afterFill me k =
        .goto (s.recordStart plan.order) (.thread me k.phase) := by cases k <;> rfl
    exact hafter ▸ .filled index plan k (Nat.le_of_not_lt hlen)

/-- Every outcome of the place of a thread is one of the listed possibilities, as long as the state
is sound, the thread is listed unless it retired, and the locks of its operation exist. -/
theorem Phase.stretch_step (h : s.Sound) {ph : Phase}
    (hme : ph.leaving = false → (s.record? me).isSome)
    (hlocks : ∀ l ∈ ph.operation.locks, (s.lock? l).isSome) :
    Stretch eligible s me ph (ph.step eligible me s) := by
  have hslot : ∀ slot, s.slotOf? me = some slot ↔ s.primaries[slot]? = some me :=
    fun _ => h.seating.slotOf?_eq_some_iff
  cases ph with
  | enter p =>
    by_cases hround : s.round = 0
    · have hstep : (Phase.enter p).step eligible me s =
          .goto s.beginRound (.thread me (.fill 0 s.staged (.takeStep p))) := by
        simp only [step, hround, if_true, h.roster.startRound_eq]
      exact hstep ▸ .bootstrap p hround
    · have hstep : (Phase.enter p).step eligible me s = .goto s (.thread me (.awaitPrimary p)) := by
        simp only [step, hround, if_false]
      exact hstep ▸ .entered p hround
  | awaitPrimary p =>
    obtain ⟨r, hr⟩ := Option.isSome_iff_exists.mp (hme rfl)
    have hmem : me ∈ s.primaries ↔ r.primary = true := by
      rw [h.seating.mem_iff, hr]
      simp
    by_cases hp : r.primary = true
    · obtain ⟨slot, hs⟩ := State.Seating.exists_slot (hmem.mpr hp)
      have hseat := (hslot slot).mp hs
      have hstep : (Phase.awaitPrimary p).step eligible me s = s.attempt me slot p := by
        simp only [step, State.withRecord, hr, hp, if_true, State.withSlot, hs]
      rw [hstep]
      by_cases hin : slot ∈ s.live.order
      · by_cases hhead : s.live.order.head? = some slot
        · exact h.attempt_eq me p hhead ▸ stretch_serve h p hseat hhead hlocks
        · have hattempt : s.attempt me slot p =
              .goto (s.awaitTurn me) (.thread me (.check (.awaitTurn p))) := by
            simp [State.attempt, RoundConfig.hasStepsFor, RoundConfig.head?, hin, hhead]
          exact hattempt ▸ .notNext p slot hseat hin hhead
      · have hattempt : s.attempt me slot p =
            .goto (s.finish me) (.thread me (.check (.awaitRoundEnd p))) := by
          simp [State.attempt, RoundConfig.hasStepsFor, hin]
        exact hattempt ▸ .finished p slot hseat hin
    · have hstep : (Phase.awaitPrimary p).step eligible me s = .sleep := by
        simp [step, State.withRecord, hr, hp]
      exact hstep ▸ .sleepForSeat p (mt hmem.mp hp)
  | awaitRoundEnd p =>
    obtain ⟨r, hr⟩ := Option.isSome_iff_exists.mp (hme rfl)
    simp only [step, State.withRecord, hr]
    split
    · next hf => exact .sleepForEnd p r hr hf
    · next hf => exact .ended p r hr (by simpa using hf)
  | awaitTurn p =>
    obtain ⟨r, hr⟩ := Option.isSome_iff_exists.mp (hme rfl)
    simp only [step, State.withRecord, hr]
    split
    · next hw => exact .sleepForTurn p r hr hw
    · next hw => exact .woken p r hr (by simpa using hw)
  | awaitHandOver l =>
    obtain ⟨r, hr⟩ := Option.isSome_iff_exists.mp (hme rfl)
    obtain ⟨k, hk⟩ := Option.isSome_iff_exists.mp (hlocks l (by simp [operation, Operation.locks]))
    simp only [step, State.withLock, hk, State.withRecord, hr]
    split
    · next ho => exact .handed l k hk ho
    · next ho =>
      split
      · next hq => exact .sleepInQueue l k r hk ho hr hq
      · next hq => exact .retry l k r hk ho hr (by simpa using hq)
  | check k => exact stretch_check h k
  | fill index plan k => exact stretch_fill h index plan k
  | enterRetirement =>
    by_cases hround : s.round = 0
    · have hstep : Phase.enterRetirement.step eligible me s =
          .goto s.beginRound (.thread me (.fill 0 s.staged .retire)) := by
        simp only [step, hround, if_true, h.roster.startRound_eq]
      exact hstep ▸ .bootstrapRetirement hround
    · have hstep : Phase.enterRetirement.step eligible me s =
          .goto s (.thread me .awaitRetirement) := by
        simp only [step, hround, if_false]
      exact hstep ▸ .enteredRetirement hround
  | awaitRetirement =>
    obtain ⟨r, hr⟩ := Option.isSome_iff_exists.mp (hme rfl)
    have hmem : me ∈ s.primaries ↔ r.primary = true := by
      rw [h.seating.mem_iff, hr]
      simp
    by_cases hp : r.primary = true
    · obtain ⟨slot, hs⟩ := State.Seating.exists_slot (hmem.mpr hp)
      have hstep : Phase.awaitRetirement.step eligible me s =
          .goto (s.afterRetirement me slot) (.thread me (.check .leave)) := by
        simp only [step, State.withRecord, hr, hp, if_true, State.withSlot, hs, h.retire_eq]
      exact hstep ▸ .retired slot ((hslot slot).mp hs)
    · have hstep : Phase.awaitRetirement.step eligible me s = .sleep := by
        simp [step, State.withRecord, hr, hp]
      exact hstep ▸ .sleepForRetirement (mt hmem.mp hp)

end RoundScheduler
