import RoundScheduler.Proofs.Determinism.Shadow

/-!
# How the course follows

Every move that follows the agenda leaves the course as it is or lets it go on once. Calls, wakings
and looks at an open round are not noticed; a step is taken, a lock released or a routine broken off
where the course says; a round begins where none of its primaries can do anything.
-/

namespace RoundScheduler

open State

namespace Shadow

variable {w : Agenda} {sys sys' : System} {c c' : Course} {t u : ThreadId} {op : Operation}
  {o : Outcome} {ph ph' : Phase} {s' : State} {r : Reply}

/-- Who is inside the critical section is not noticed. -/
lemma inside (h : Shadow w sys c) (i : Option Agent) : Shadow w { sys with inside := i } c where
  mirrors := h.mirrors
  filling := h.filling
  keeps t ht := ⟨(h.keeps t ht).operation, (h.keeps t ht).todo⟩
  listed := h.listed
  units := h.units
  client := h.client
  clients := h.clients

/-! ### What a thread asks for -/

/-- A thread that was handed no lock asks for its next order. -/
lemma next?_of_operation (h : w.Keeps sys c t) {order : Order}
    (hop : (w.todo t sys.returns).operation = order.operation)
    (hhands : c.hands t (sys.phase? (.unit t)) = false) : c.desk.next? t = some order := by
  have htodo := h.todo
  rw [hhands, if_neg Bool.false_ne_true] at htodo
  rw [Desk.next?, htodo]
  exact Routine.head?_of_operation hop

/-- Who is alive and in no queue can go on with its routine. -/
lemma active (h : Shadow w sys c) (hinv : Invariant sys) (halive : sys.state.isAlive t = true)
    (hlink : sys.state.linkOf? t = none) : c.Active t where
  listed := by
    obtain ⟨r, hr, hstarted, -⟩ := exists_record_of_isAlive halive
    rw [h.mirrors.roster]
    exact hinv.sound.roster.mem_list hr hstarted
  unretired := (h.mirrors.retired t).trans (hasTerminated_of_isAlive halive)
  unlinked := (h.mirrors.link t).trans hlink

/-- A thread in an ordered step asks for it, and for no lock that it owns. -/
lemma asks (h : Shadow w sys c) (hinv : Invariant sys) (halive : sys.state.isAlive t = true)
    (hcall : sys.calls.get? (.unit t) = some ⟨op, .thread t ph⟩) {p : Purpose}
    (hp : ph.purpose? = some p) : c.desk.next? t = some (.step p) ∧
      ∀ l, p.lock? = some l → c.desk.owner l ≠ some t := by
  obtain ⟨-, rfl, hpoised, -, hlocks⟩ := (hcall ▸ hinv.placed (.unit t)).of_thread
  have hphase : sys.phase? (.unit t) = some ph := by rw [System.phase?, hcall]; rfl
  refine ⟨next?_of_operation (h.keeps t halive) ?_ ?_, fun l hl => ?_⟩
  · have hop := (h.keeps t halive).operation _ hcall
    exact hop.symm.trans (Phase.operation_of_purpose? hp)
  · rw [hphase]
    exact hands_of_awaited? (Phase.awaited?_of_purpose? hp)
  · have hlock : p = .lock l := by
      cases p with
      | lock m => cases hl; rfl
      | _ => cases hl
    subst hlock
    rw [Phase.operation_of_purpose? hp] at hlocks
    obtain ⟨k, hk⟩ := Option.isSome_iff_exists.mp (hlocks l (List.mem_singleton.mpr rfl))
    rw [h.mirrors.owner l k hk]
    exact hpoised.asking l k hp hk

/-! ### Ways to follow -/

/-- The fill of the round stays what it is if a thread neither was filling it nor is. -/
lemma filling_keep (h : Shadow w sys c) (hsame : c'.filling = c.filling)
    (hbefore : sys.fill? (.unit t) = none)
    (hafter : (sys.apply (.unit t) op o).fill? (.unit t) = none) (f : Nat × RoundConfig) :
    c'.filling = some f ↔ ∃ a, (sys.apply (.unit t) op o).fill? a = some f := by
  have hfill : ∀ a, (sys.apply (.unit t) op o).fill? a = sys.fill? a := by
    intro a
    by_cases hat : a = .unit t
    · rw [hat, hafter, hbefore]
    · exact System.fill?_apply_of_ne hat
  simp only [hsame, hfill]
  exact h.filling f

/-- A thread goes on in its operation, and no routine with it. -/
lemma goto (h : Shadow w sys c) (hinv : Invariant sys) (hs : c.Sound w.routine)
    (hcall : sys.calls.get? (.unit t) = some ⟨op, .thread t ph⟩)
    (hchange : Change sys.state (some t) s') (hmirrors : c'.Mirrors s')
    (hsame : c'.listed = c.listed) (htodo : c'.desk.todo = c.desk.todo)
    (howner : c'.desk.owner = c.desk.owner)
    (hhands : c.hands t (some ph') = c.hands t (some ph))
    (hfilling : ∀ f, c'.filling = some f ↔
      ∃ a, (sys.apply (.unit t) op (.goto s' (.thread t ph'))).fill? a = some f) :
    Shadow w (sys.apply (.unit t) op (.goto s' (.thread t ph'))) c' := by
  have ⟨hlisted, hsubmits⟩ := h.units t _ hcall
  have hother : ∀ u l, c'.desk.owner l = some u ↔ c.desk.owner l = some u := fun u l => by
    rw [howner]
  refine h.apply_unit hinv hs hchange hlisted hsubmits hmirrors hsame hfilling
    (fun u _ => .inl ⟨congrFun htodo u, hother u⟩) fun hkeeps => ?_
  refine keeps_goto hkeeps hcall (congrFun htodo t) ?_
  rw [hands_of_owner (hother t)]
  exact hhands

/-- A thread that does not fill the round goes on in its operation, and no routine with it. -/
lemma goto_beside (h : Shadow w sys c) (hinv : Invariant sys) (hs : c.Sound w.routine)
    (hcall : sys.calls.get? (.unit t) = some ⟨op, .thread t ph⟩)
    (hchange : Change sys.state (some t) s') (hmirrors : c'.Mirrors s')
    (hsame : c'.listed = c.listed) (hfilling : c'.filling = c.filling)
    (htodo : c'.desk.todo = c.desk.todo) (howner : c'.desk.owner = c.desk.owner)
    (hhands : c.hands t (some ph') = c.hands t (some ph)) (hph : ph.fill? = none)
    (hph' : ph'.fill? = none) :
    Shadow w (sys.apply (.unit t) op (.goto s' (.thread t ph'))) c' := by
  refine h.goto hinv hs hcall hchange hmirrors hsame htodo howner hhands
    (h.filling_keep hfilling ((System.fill?_of_call hcall).trans hph) ?_)
  exact (System.fill?_apply_self hcall).trans hph'

/-- The only thread that may fill the round goes on, and no routine with it. -/
lemma goto_filling (h : Shadow w sys c) (hinv : Invariant sys) (hs : c.Sound w.routine)
    (hcall : sys.calls.get? (.unit t) = some ⟨op, .thread t ph⟩)
    (hchange : Change sys.state (some t) s') (hmirrors : c'.Mirrors s')
    (hsame : c'.listed = c.listed) (htodo : c'.desk.todo = c.desk.todo)
    (howner : c'.desk.owner = c.desk.owner) (hawaited : ph'.awaited? = ph.awaited?)
    (hnone : ∀ b, b ≠ .unit t → sys.fill? b = none) (hph' : ph'.fill? = c'.filling) :
    Shadow w (sys.apply (.unit t) op (.goto s' (.thread t ph'))) c' := by
  refine h.goto hinv hs hcall hchange hmirrors hsame htodo howner ?_
    (filling_of_single (a := .unit t) (fun b hb => ?_) ?_)
  · simp [Course.hands, hawaited]
  · exact (System.fill?_apply_of_ne hb).trans (hnone b hb)
  · exact (System.fill?_apply_self hcall).trans hph'

/-- A thread is answered. -/
lemma reply {v : Option ThreadId} (h : Shadow w sys c) (hinv : Invariant sys)
    (hs : c.Sound w.routine) (hchange : Change sys.state v s') (hlisted : t.raw < c.listed)
    (hsubmits : op.submits = false) (hbefore : sys.fill? (.unit t) = none)
    (hmirrors : c'.Mirrors s') (hsame : c'.listed = c.listed) (hfilling : c'.filling = c.filling)
    (hothers : ∀ u, u ≠ t →
      (c'.desk.todo u = c.desk.todo u ∧ ∀ l, c'.desk.owner l = some u ↔ c.desk.owner l = some u) ∨
        ∃ l, Desk.Handed c.desk c'.desk u l)
    (htodo : w.Keeps sys c t → c'.desk.todo t = (w.todo t sys.returns).after r.verdict) :
    Shadow w (sys.apply (.unit t) op (.reply s' r)) c' := by
  refine h.apply_unit hinv hs hchange hlisted hsubmits hmirrors hsame
    (h.filling_keep hfilling hbefore ?_) hothers fun hkeeps => keeps_reply (htodo hkeeps)
  rw [System.fill?_apply rfl, if_pos rfl]
  rfl

/-- A thread is answered as the course says. -/
lemma reply_of_does {v : Option ThreadId} (h : Shadow w sys c) (hinv : Invariant sys)
    (hs : c.Sound w.routine) (hchange : Change sys.state v s') (hsubmits : op.submits = false)
    (hbefore : sys.fill? (.unit t) = none) (hhands : c.hands t (sys.phase? (.unit t)) = false)
    {e : Deed} (he : c.Does t e) (hmirrors : (c.act t e).Mirrors s')
    (htodo : (c.act t e).desk.todo t = (c.desk.todo t).after r.verdict) :
    Shadow w (sys.apply (.unit t) op (.reply s' r)) (c.act t e) := by
  refine h.reply hinv hs hchange (hs.numbered t he.active.listed) hsubmits hbefore hmirrors
    Course.listed_act Course.filling_act (fun u hut => ?_) fun hkeeps => ?_
  · exact (he.spared_or_handed hs.desk hut).imp_left fun hspared => ⟨hspared.todo, hspared.owner⟩
  · have hold := hkeeps.todo
    rw [hhands, if_neg Bool.false_ne_true] at hold
    rw [htodo, hold]

/-! ### Steps -/

/-- The primary of the next step takes it. -/
lemma does_step (h : Shadow w sys c) (hinv : Invariant sys) {p : Purpose} {slot : Slot}
    (hcall : sys.calls.get? (.unit t) = some ⟨op, .thread t (.awaitPrimary p)⟩)
    (hslot : sys.state.primaries[slot]? = some t)
    (hhead : sys.state.live.order.head? = some slot) : c.Does t (.step slot p) := by
  have hplaced := hcall ▸ hinv.placed (.unit t)
  have halive := hplaced.alive rfl
  obtain ⟨hnext, howner⟩ := h.asks hinv halive hcall rfl
  refine .step slot p (h.active hinv halive (hplaced.poised.unflagged rfl rfl rfl).linked) hnext
    howner ?_ ?_
  · rw [h.mirrors.live]
    exact hhead
  · rw [h.mirrors.primaries]
    exact hslot

/-- A step is answered at once. -/
lemma step_reply (h : Shadow w sys c) (hinv : Invariant sys) (hs : c.Sound w.routine)
    {p : Purpose} {slot : Slot}
    (hcall : sys.calls.get? (.unit t) = some ⟨op, .thread t (.awaitPrimary p)⟩)
    (hslot : sys.state.primaries[slot]? = some t)
    (hhead : sys.state.live.order.head? = some slot) (hchange : Change sys.state (some t) s')
    (hmirrors : (c.act t (.step slot p)).Mirrors s')
    (htodo : (c.act t (.step slot p)).desk.todo t = (c.desk.todo t).after r.verdict) :
    ∃ c', c.Follows w.eligible c' ∧ Shadow w (sys.apply (.unit t) op (.reply s' r)) c' := by
  have he := h.does_step hinv hcall hslot hhead
  have hphase : sys.phase? (.unit t) = some (.awaitPrimary p) := by rw [System.phase?, hcall]; rfl
  refine ⟨_, .inr ⟨_, .act t _ he⟩, h.reply_of_does hinv hs hchange (h.units t _ hcall).2
    (System.fill?_of_call hcall) ?_ he hmirrors htodo⟩
  rw [hphase]
  exact hands_of_awaited? rfl

/-- A step that asks for a configuration is answered by how the request ends. -/
lemma step_revised (h : Shadow w sys c) (hinv : Invariant sys) (hs : c.Sound w.routine)
    {req : Request} {slot : Slot} {rounds : RoundConfig}
    (hcall : sys.calls.get? (.unit t) = some ⟨op, .thread t (.awaitPrimary (.reconfigure req))⟩)
    (hslot : sys.state.primaries[slot]? = some t)
    (hhead : sys.state.live.order.head? = some slot) (hchange : Change sys.state (some t) s')
    (hrevise : req.revise sys.state.staged = (rounds, r.verdict))
    (hmirrors : { c with
      live := c.live.consume, turns := c.turns ++ [(c.round, t, slot)],
      staged := rounds }.Mirrors s') :
    ∃ c', c.Follows w.eligible c' ∧ Shadow w (sys.apply (.unit t) op (.reply s' r)) c' := by
  rw [← h.mirrors.staged] at hrevise
  refine h.step_reply hinv hs hcall hslot hhead hchange ?_ ?_
  · simp only [Course.act, Desk.serve, Purpose.revise, hrevise]
    exact hmirrors.pass t r.verdict
  · simp [Course.act, Desk.serve, hrevise, Desk.pass]

/-- A step that asks for an owned lock ends in the queue of the lock. -/
lemma step_queued (h : Shadow w sys c) (hinv : Invariant sys) (hs : c.Sound w.routine)
    {l : LockId} {k : LockState} {slot : Slot}
    (hcall : sys.calls.get? (.unit t) = some ⟨op, .thread t (.awaitPrimary (.lock l))⟩)
    (hslot : sys.state.primaries[slot]? = some t)
    (hhead : sys.state.live.order.head? = some slot) (hk : sys.state.lock? l = some k)
    (howned : k.owner ≠ none)
    (hchange : Change sys.state (some t) ((sys.state.afterTurn t slot).enqueue l t)) :
    ∃ c', c.Follows w.eligible c' ∧ Shadow w (sys.apply (.unit t) op
      (.goto ((sys.state.afterTurn t slot).enqueue l t)
        (.thread t (.check (.awaitHandOver l))))) c' := by
  have he := h.does_step hinv hcall hslot hhead
  have howner := h.mirrors.owner l k hk
  have hact : c.act t (.step slot (.lock l)) =
      { c with
        live := c.live.consume
        turns := c.turns ++ [(c.round, t, slot)]
        desk := c.desk.await t l } := by
    simp only [Course.act, Desk.serve, Purpose.revise, Desk.take_of_owned (howner ▸ howned)]
  have hrecord : ((sys.state.afterTurn t slot).record? t).isSome := by
    obtain ⟨r, hr, -⟩ := exists_record_of_isAlive ((hcall ▸ hinv.placed (.unit t)).alive rfl)
    simp [record?_afterTurn, hr]
  have hmirrors := (h.mirrors.takeTurn t slot).await hrecord l
  refine ⟨_, .inr ⟨_, .act t _ he⟩, ?_⟩
  rw [hact]
  refine h.goto_beside hinv hs hcall hchange hmirrors rfl rfl rfl rfl ?_ rfl rfl
  have hnot : k.owner ≠ some t := (hcall ▸ hinv.placed (.unit t)).poised.asking l k rfl hk
  simpa [Course.hands, Phase.awaited?, howner] using hnot

/-! ### Rounds -/

/-- Whoever ends a round or waits for a turn has a purpose. -/
lemma exists_purpose_of_flag (hph : ph.endsRound = true ∨ ph.awaitsTurn = true) :
    ∃ p, ph.purpose? = some p := by
  cases ph with
  | awaitRoundEnd p | awaitTurn p => exact ⟨p, rfl⟩
  | check k =>
    cases k with
    | awaitRoundEnd p | awaitTurn p => exact ⟨p, rfl⟩
    | _ => simp [Phase.endsRound, Phase.awaitsTurn] at hph
  | _ => simp [Phase.endsRound, Phase.awaitsTurn] at hph

/-- Whoever is finished or waits for its turn is in an ordered step. -/
lemma exists_call_of_flag (hinv : Invariant sys)
    (hflag : sys.state.isFinished t = true ∨ sys.state.isWaiting t = true) :
    ∃ ph p, sys.calls.get? (.unit t) = some ⟨ph.operation, .thread t ph⟩ ∧
      ph.purpose? = some p := by
  have hpoised : sys.state.Poised t (sys.phase? (.unit t)) := (hinv.placed (.unit t)).poised
  have hplace : ∃ ph, sys.phase? (.unit t) = some ph ∧
      (ph.endsRound = true ∨ ph.awaitsTurn = true) := by
    rcases hflag with hfinished | hwaiting
    · obtain ⟨ph, hph, hends⟩ := (Option.any_eq_true _ _).mp (hpoised.finished hfinished)
      exact ⟨ph, hph, .inl hends⟩
    · obtain ⟨ph, hph, hawaits⟩ := (Option.any_eq_true _ _).mp (hpoised.waiting hwaiting)
      exact ⟨ph, hph, .inr hawaits⟩
  obtain ⟨ph, hph, hends⟩ := hplace
  obtain ⟨p, hp⟩ := exists_purpose_of_flag hends
  exact ⟨ph, p, hinv.call_of_phase hph, hp⟩

/-- A primary that cannot make progress does nothing. -/
lemma not_does (h : Shadow w sys c) (hinv : Invariant sys) (ht : t ∈ sys.state.primaries)
    (hstuck : sys.state.canProgress t = false) (e : Deed) : ¬ c.Does t e := by
  intro he
  obtain ⟨r, hr, hprimary⟩ := (hinv.sound.seating.mem_iff t).mp ht
  have hstarted := hinv.sound.seating.started t r hr hprimary
  have htruthful := hinv.sound.seating.truthful t r hr
  have hterminated : r.terminated = false := by
    have hretired := (h.mirrors.retired t).symm.trans he.active.unretired
    simpa [hasTerminated, hr] using hretired
  have hlink : r.enqueued = none := by
    have hunlinked := (h.mirrors.link t).symm.trans he.active.unlinked
    simpa [linkOf?, hr] using hunlinked
  have hflag : r.finished = true ∨ r.waitingForTurn = true := by
    simp only [State.canProgress, hr, Option.any_some, ThreadRecord.canProgress, hterminated,
      hlink] at hstuck
    cases hfinished : r.finished with
    | true => exact .inl rfl
    | false => simpa [hfinished] using hstuck
  have halive : sys.state.isAlive t = true := by simp [isAlive, hr, hstarted, hterminated]
  obtain ⟨ph, p, hcall, hp⟩ := exists_call_of_flag (t := t) hinv
    (by simpa [isFinished, isWaiting, hr] using hflag)
  -- It asks for a step, and the next step is not its own.
  obtain ⟨hnext, howner⟩ := h.asks hinv halive hcall hp
  cases he with
  | refused l _ hnext' => cases hnext.symm.trans hnext'
  | give l _ hnext' => cases hnext.symm.trans hnext'
  | failed q l _ hnext' hlock howned =>
    cases hnext.symm.trans hnext'
    exact howner l hlock howned
  | retire slot _ hnext' => cases hnext.symm.trans hnext'
  | step slot q _ _ _ hhead hslot =>
    rw [h.mirrors.live] at hhead
    rw [h.mirrors.primaries] at hslot
    rcases hflag with hfinished | hwaiting
    · exact htruthful.finished slot hslot hfinished (List.mem_of_mem_head? hhead)
    · exact (htruthful.waiting slot hslot hwaiting).2 hhead

/-- Nobody is a primary before the first round. -/
lemma not_does_of_unbegun (h : Shadow w sys c) (hinv : Invariant sys)
    (hround : sys.state.round = 0) : ∀ u ∈ c.primaries, ∀ e, ¬ c.Does u e := by
  rw [h.mirrors.primaries, hinv.sound.seating.unbegun hround]
  exact nofun

/-- A round begins, and its first thread fills it. -/
lemma round_begins (h : Shadow w sys c) (hinv : Invariant sys) (hs : c.Sound w.routine)
    (hcall : sys.calls.get? (.unit t) = some ⟨op, .thread t ph⟩) {k : AfterFill}
    (hchange : Change sys.state (some t) s') (hmirrors : c.nextRound.Mirrors s')
    (hawaited : (Phase.fill 0 sys.state.staged k).awaited? = ph.awaited?) (hph : ph.fill? = none)
    (hnone : ∀ b, b ≠ .unit t → sys.fill? b = none)
    (hstuck : ∀ u ∈ c.primaries, ∀ e, ¬ c.Does u e) :
    ∃ c', c.Follows w.eligible c' ∧ Shadow w (sys.apply (.unit t) op
      (.goto s' (.thread t (.fill 0 sys.state.staged k)))) c' := by
  have hfilling : c.filling = none := by
    refine Option.eq_none_iff_forall_ne_some.mpr fun f hf => ?_
    obtain ⟨a, ha⟩ := (h.filling f).mp hf
    by_cases hat : a = .unit t
    · rw [hat, System.fill?_of_call hcall, hph] at ha
      cases ha
    · rw [hnone a hat] at ha
      cases ha
  refine ⟨c.nextRound, .inr ⟨.next, .next hfilling hstuck⟩, ?_⟩
  refine h.goto_filling hinv hs hcall hchange hmirrors rfl rfl rfl hawaited hnone ?_
  rw [← h.mirrors.staged]
  rfl

section Filling

variable {index : Nat} {plan : RoundConfig} {k : AfterFill}

/-- The filling of the course is that of the thread that fills. -/
lemma filling_eq (h : Shadow w sys c)
    (hcall : sys.calls.get? (.unit t) = some ⟨op, .thread t (.fill index plan k)⟩) :
    c.filling = some (index, plan) :=
  (h.filling _).mpr ⟨.unit t, System.fill?_of_call hcall⟩

/-- While a thread fills the round, nobody else does. -/
lemma none_of_filling (hinv : Invariant sys)
    (hcall : sys.calls.get? (.unit t) = some ⟨op, .thread t (.fill index plan k)⟩) (b : Agent)
    (hb : b ≠ .unit t) : sys.fill? b = none :=
  hinv.fillers.none_of_ne (by simp [System.fill?_of_call hcall, Phase.fill?]) hb

/-- The course can look at the thread that the filler looks at. -/
lemma fires_look (h : Shadow w sys c)
    (hcall : sys.calls.get? (.unit t) = some ⟨op, .thread t (.fill index plan k)⟩)
    (hlen : sys.state.primaries.length < plan.primaries)
    (hu : sys.state.threadList[index]? = some u) :
    Course.Fires w.eligible c .fill (c.look u w.eligible index plan) := by
  refine .look index plan u (h.filling_eq hcall) ?_ ?_
  · rw [h.mirrors.primaries]
    exact hlen
  · rw [h.mirrors.roster]
    exact hu

/-- Whoever fills the round passes over the threads that may not become primaries. -/
lemma fill_skipped (h : Shadow w sys c) (hinv : Invariant sys) (hs : c.Sound w.routine)
    (hcall : sys.calls.get? (.unit t) = some ⟨op, .thread t (.fill index plan k)⟩)
    (hlen : sys.state.primaries.length < plan.primaries)
    (hu : sys.state.threadList[index]? = some u) {r : ThreadRecord}
    (hr : sys.state.record? u = some r) (hskip : r.terminated = true ∨ w.eligible u = false) :
    ∃ c', c.Follows w.eligible c' ∧ Shadow w (sys.apply (.unit t) op
      (.goto sys.state (.thread t (.fill (index + 1) plan k)))) c' := by
  -- A thread that retired is a primary, and those were looked at before.
  have hnew : u ∉ sys.state.primaries :=
    (hinv.fillers.filling _ index plan (System.fill?_of_call hcall)).1.not_mem hinv.sound.roster hu
  have heligible : w.eligible u = false := hskip.resolve_left fun hterminated =>
    hnew ((hinv.sound.seating.primary_of_mem hr).mp
      ((hinv.sound.seating.truthful u r hr).primary (.inr (.inr (.inl hterminated)))))
  exact ⟨_, .inr ⟨_, h.fires_look hcall hlen hu⟩,
    h.goto_filling hinv hs hcall .stay (h.mirrors.skip heligible index plan) rfl rfl rfl
      (k.awaited?_fill ..) (none_of_filling hinv hcall) rfl⟩

/-- Whoever fills the round chooses the threads that may become primaries. -/
lemma fill_chosen (h : Shadow w sys c) (hinv : Invariant sys) (hs : c.Sound w.routine)
    (hcall : sys.calls.get? (.unit t) = some ⟨op, .thread t (.fill index plan k)⟩)
    (hlen : sys.state.primaries.length < plan.primaries)
    (hu : sys.state.threadList[index]? = some u) (heligible : w.eligible u = true)
    (hchange : Change sys.state (some t) (sys.state.choose u)) :
    ∃ c', c.Follows w.eligible c' ∧ Shadow w (sys.apply (.unit t) op
      (.goto (sys.state.choose u) (.thread t (.fill (index + 1) plan k)))) c' :=
  ⟨_, .inr ⟨_, h.fires_look hcall hlen hu⟩,
    h.goto_filling hinv hs hcall hchange (h.mirrors.choose heligible index plan) rfl rfl rfl
      (k.awaited?_fill ..) (none_of_filling hinv hcall) rfl⟩

/-- Whoever fills the round ends with its start. -/
lemma fill_ended (h : Shadow w sys c) (hinv : Invariant sys) (hs : c.Sound w.routine)
    (hcall : sys.calls.get? (.unit t) = some ⟨op, .thread t (.fill index plan k)⟩)
    (hlen : plan.primaries ≤ sys.state.primaries.length)
    (hchange : Change sys.state (some t) (sys.state.recordStart plan.order)) :
    ∃ c', c.Follows w.eligible c' ∧ Shadow w (sys.apply (.unit t) op
      (.goto (sys.state.recordStart plan.order) (.thread t k.phase))) c' := by
  refine ⟨_, .inr ⟨.fill, .fill index plan (h.filling_eq hcall) ?_⟩,
    h.goto_filling hinv hs hcall hchange (h.mirrors.fill plan) rfl rfl rfl
      (k.awaited?_phase index plan) (none_of_filling hinv hcall) ?_⟩
  · rw [h.mirrors.primaries]
    exact hlen
  · cases k <;> rfl

end Filling

/-! ### Retirement -/

/-- Whoever retires has done everything else. -/
lemma returns_of_retiring (h : w.Keeps sys c t)
    (hcall : sys.calls.get? (.unit t) = some ⟨op, .thread t ph⟩) (hop : op = .retire) :
    w.todo t sys.returns = [] := by
  have hnext : op = (w.todo t sys.returns).operation := h.operation _ hcall
  exact Routine.eq_nil_of_operation (hnext.symm.trans hop)

/-- Nothing is left of the routine of a thread that retires. -/
lemma todo_of_retiring (h : w.Keeps sys c t)
    (hcall : sys.calls.get? (.unit t) = some ⟨op, .thread t ph⟩) (hop : op = .retire) :
    c.desk.todo t = [] := by
  have htodo := h.todo
  rw [returns_of_retiring h hcall hop] at htodo
  simpa [Routine.after] using htodo

/-- A primary retires. -/
lemma retires (h : Shadow w sys c) (hinv : Invariant sys) (hs : c.Sound w.routine) {slot : Slot}
    (hcall : sys.calls.get? (.unit t) = some ⟨op, .thread t .awaitRetirement⟩)
    (hop : op = .retire) (hslot : sys.state.primaries[slot]? = some t)
    (hchange : Change sys.state (some t) (sys.state.afterRetirement t slot)) :
    ∃ c', c.Follows w.eligible c' ∧ Shadow w (sys.apply (.unit t) op
      (.goto (sys.state.afterRetirement t slot) (.thread t (.check .leave)))) c' := by
  have hplaced := hcall ▸ hinv.placed (.unit t)
  have halive := hplaced.alive rfl
  have hnext : c.desk.next? t = none := by
    rw [Desk.next?, todo_of_retiring (h.keeps t halive) hcall hop]
    rfl
  have hslot' : c.primaries.idxOf? t = some slot := by
    rw [h.mirrors.primaries]
    exact hinv.sound.seating.slotOf?_eq_some_iff.mpr hslot
  have hactive := h.active hinv halive (hplaced.poised.unflagged rfl rfl rfl).linked
  have hrecord : (sys.state.record? t).isSome := by
    obtain ⟨r, hr, -⟩ := exists_record_of_isAlive halive
    simp [hr]
  exact ⟨_, .inr ⟨_, .act t _ (.retire slot hactive hnext hslot')⟩,
    h.goto_beside hinv hs hcall hchange (h.mirrors.retire hrecord slot) rfl rfl rfl rfl rfl rfl rfl⟩

/-! ### Stretches of threads -/

/-- The course follows what a thread does. -/
theorem stretch (h : Shadow w sys c) (hinv : Invariant sys) (hs : c.Sound w.routine)
    (hinside : sys.inside = some (.unit t))
    (hcall : sys.calls.get? (.unit t) = some ⟨op, .thread t ph⟩) (hop : op = ph.operation)
    (ho : Stretch w.eligible sys.state t ph o) :
    ∃ c', c.Follows w.eligible c' ∧ Shadow w (sys.apply (.unit t) op o) c' := by
  have hchange := hinv.stretch_change hcall hop ho
  have hplaced := hcall ▸ hinv.placed (.unit t)
  have hunits := h.units t _ hcall
  cases ho with
  | entered | ended | woken | enteredRetirement =>
    exact ⟨c, .inl rfl, h.goto_beside hinv hs hcall hchange h.mirrors rfl rfl rfl rfl rfl rfl rfl⟩
  | sleepForSeat | sleepForEnd | sleepForTurn | sleepInQueue | sleepForRetirement | runOut =>
    exact ⟨c, .inl rfl, h.inside none⟩
  | finished =>
    exact ⟨c, .inl rfl,
      h.goto_beside hinv hs hcall hchange (h.mirrors.finish t) rfl rfl rfl rfl rfl rfl rfl⟩
  | notNext =>
    exact ⟨c, .inl rfl,
      h.goto_beside hinv hs hcall hchange (h.mirrors.awaitTurn t) rfl rfl rfl rfl rfl rfl rfl⟩
  | retry l k r hk howner =>
    refine ⟨c, .inl rfl, h.goto_beside hinv hs hcall hchange h.mirrors rfl rfl rfl rfl ?_ rfl rfl⟩
    simpa [Course.hands, Phase.awaited?, h.mirrors.owner l k hk] using howner
  | stillOpen k ph' hk =>
    refine ⟨c, .inl rfl, h.goto_beside hinv hs hcall hchange h.mirrors rfl rfl rfl rfl ?_ rfl ?_⟩
    · cases k <;> cases hk <;> rfl
    · cases k <;> cases hk <;> rfl
  | handed l k hk howner =>
    refine ⟨c, .inl rfl, h.reply hinv hs hchange hunits.1 hunits.2 (System.fill?_of_call hcall)
      h.mirrors rfl rfl (fun _ _ => .inl ⟨rfl, fun _ => .rfl⟩) fun hkeeps => ?_⟩
    have hhands : c.hands t (sys.phase? (.unit t)) = true := by
      simp [System.phase?, hcall, Point.phase?, Course.hands, Phase.awaited?,
        h.mirrors.owner l k hk, howner]
    have htodo := hkeeps.todo
    rw [hhands, if_pos rfl] at htodo
    exact htodo
  | left =>
    refine ⟨c, .inl rfl, h.reply hinv hs hchange hunits.1 hunits.2 (System.fill?_of_call hcall)
      h.mirrors rfl rfl (fun _ _ => .inl ⟨rfl, fun _ => .rfl⟩) fun hkeeps => ?_⟩
    rw [todo_of_retiring hkeeps hcall hop, returns_of_retiring hkeeps hcall hop]
    rfl
  | turn slot hslot hhead =>
    refine h.step_reply hinv hs hcall hslot hhead hchange
      ((h.mirrors.takeTurn t slot).pass t .done) ?_
    simp [Course.act, Desk.serve, Desk.pass, Reply.verdict]
  | granted l k slot hslot hhead hk hfree =>
    have howner : c.desk.owner l = none := (h.mirrors.owner l k hk).trans hfree
    refine h.step_reply hinv hs hcall hslot hhead hchange ?_ ?_
    · simp only [Course.act, Desk.serve, Purpose.revise, Desk.take_of_free howner]
      exact (h.mirrors.takeTurn t slot).acquire t l
    · simp [Course.act, Desk.serve, Desk.take_of_free howner, Desk.acquire, Desk.pass,
        Reply.verdict]
  | queued l k slot hslot hhead hk howned =>
    exact h.step_queued hinv hs hcall hslot hhead hk howned hchange
  | staged r slot rounds hslot hhead hrounds =>
    refine h.step_revised hinv hs hcall hslot hhead hchange ?_
      ((h.mirrors.takeTurn t slot).stage t _ _ rounds)
    rw [Request.revise, hrounds]
    rfl
  | refused r slot e hslot hhead he | overflowed r slot e hslot hhead he =>
    refine h.step_revised hinv hs hcall hslot hhead hchange ?_ (h.mirrors.takeTurn t slot)
    rw [Request.revise, he, h.mirrors.staged]
    rfl
  | bootstrap p hround | bootstrapRetirement hround =>
    exact h.round_begins hinv hs hcall hchange (h.mirrors.firstRound hinv.sound hround) rfl rfl
      (fun b _ => hinv.fillers.none_of_unbegun hround b) (h.not_does_of_unbegun hinv hround)
  | closed k hfull hstuck =>
    refine h.round_begins hinv hs hcall hchange (h.mirrors.nextRound hinv.sound) ?_ rfl
      (fun b hb => hinv.fillers.none_of_full hinside hfull hb) fun u hu => ?_
    · cases k <;> rfl
    · rw [h.mirrors.primaries] at hu
      exact h.not_does hinv hu (hstuck u hu)
  | skipped index plan k u r hlen hu hr hskip =>
    exact h.fill_skipped hinv hs hcall hlen hu hr hskip
  | chosen index plan k u r hlen hu hr hterminated heligible =>
    exact h.fill_chosen hinv hs hcall hlen hu heligible hchange
  | filled index plan k hlen => exact h.fill_ended hinv hs hcall hlen hchange
  | retired slot hslot => exact h.retires hinv hs hcall hop hslot hchange

end Shadow

end RoundScheduler
