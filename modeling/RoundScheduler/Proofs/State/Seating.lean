import RoundScheduler.Proofs.State.Roster

/-!
# The seating of a round

The primaries of a round sit at its slots, and the flags of a record say where its thread stands in
the total order: a thread that is finished or retired has no step left, and a thread that waits for
its turn has one that is not the next. Only primaries carry such flags. Waking the owner of the next
step after every change of the order is what keeps the last point true. This file states these facts
and shows that every change of the state keeps them.
-/

namespace RoundScheduler

/-- A configuration of which nobody has taken a step: some passes over some slots. -/
def RoundConfig.IsRoundRobin (c : RoundConfig) : Prop :=
  0 < c.primaries ∧ ∃ steps, 0 < steps ∧ c.order = RoundConfig.passes c.primaries steps

namespace RoundConfig

/-- The slots of an order made of passes are below the number of primaries. -/
lemma mem_passes {n steps : Nat} {slot : Slot} (h : slot ∈ passes n steps) : slot < n := by
  simp only [passes, List.mem_flatten, List.mem_replicate] at h
  obtain ⟨pass, ⟨-, rfl⟩, hslot⟩ := h
  exact List.mem_range.mp hslot

/-- The slots of a configuration made of passes are below its number of primaries. -/
lemma IsRoundRobin.bounded {c : RoundConfig} (h : c.IsRoundRobin) :
    ∀ slot ∈ c.order, slot < c.primaries := by
  obtain ⟨-, steps, -, horder⟩ := h
  intro slot hslot
  rw [horder] at hslot
  exact mem_passes hslot

/-- Every pass has a step for each primary. -/
lemma length_passes (n steps : Nat) : (passes n steps).length = steps * n := by
  simp [passes]

/-- The steps of each primary are the number of passes. -/
lemma stepsPerPrimary_passes {n : Nat} (hn : 0 < n) (steps : Nat) :
    stepsPerPrimary ⟨n, passes n steps⟩ = steps := by
  rw [stepsPerPrimary, length_passes, Nat.mul_div_cancel _ hn]

/-- A configuration of which nobody has taken a step, by its own numbers. -/
lemma IsRoundRobin.eq_passes {c : RoundConfig} (h : c.IsRoundRobin) :
    c = ⟨c.primaries, passes c.primaries c.stepsPerPrimary⟩ ∧ 0 < c.stepsPerPrimary := by
  obtain ⟨hpositive, steps, hsteps, horder⟩ := h
  have heq : c = ⟨c.primaries, passes c.primaries steps⟩ :=
    congrArg (RoundConfig.mk c.primaries) horder
  have hcount : c.stepsPerPrimary = steps := by
    rw [heq]
    exact stepsPerPrimary_passes hpositive steps
  rw [hcount]
  exact ⟨heq, hsteps⟩

/-- The order of a configuration of which nobody has taken a step, by its own numbers. -/
lemma IsRoundRobin.order_eq {c : RoundConfig} (h : c.IsRoundRobin) :
    c.order = passes c.primaries c.stepsPerPrimary :=
  congrArg order h.eq_passes.1

/-- What a request makes is an order of passes. -/
lemma isRoundRobin_of_roundRobin {n steps : Nat} {c : RoundConfig}
    (h : roundRobin n steps = .ok c) : c.IsRoundRobin := by
  unfold roundRobin EmptyRound.check at h
  by_cases hn : n = 0
  · simp [hn] at h
  · by_cases hsteps : steps = 0
    · simp [hn, hsteps] at h
    · by_cases hlimit : n < Word.rowLimit
      · simp only [hn, hsteps, hlimit, if_true, if_false, Except.ok.injEq] at h
        subst h
        exact ⟨Nat.pos_of_ne_zero hn, steps, Nat.pos_of_ne_zero hsteps, rfl⟩
      · simp [hn, hsteps, hlimit] at h

end RoundConfig

namespace State

/-- What the flags of the record `r` of the thread `t` say is true, given the primaries of a round
and the steps that are left. -/
structure Truthful (primaries : List ThreadId) (order : List Slot) (t : ThreadId)
    (r : ThreadRecord) : Prop where
  /-- Only primaries are finished, waiting, retired or queued. -/
  primary : r.finished = true ∨ r.waitingForTurn = true ∨ r.terminated = true ∨ r.enqueued ≠ none →
    r.primary = true
  /-- A finished primary has no step left. -/
  finished : ∀ slot, primaries[slot]? = some t → r.finished = true → slot ∉ order
  /-- A retired primary has no step left. -/
  terminated : ∀ slot, primaries[slot]? = some t → r.terminated = true → slot ∉ order
  /-- A waiting primary has a step left, and it is not the next one. -/
  waiting : ∀ slot, primaries[slot]? = some t → r.waitingForTurn = true →
    slot ∈ order ∧ order.head? ≠ some slot

/-- The primaries, the flags of records and the total order agree. -/
structure Seating (s : State) : Prop where
  /-- Nobody has two slots. -/
  nodup : s.primaries.Nodup
  /-- The primaries are the threads whose record says so. -/
  mem_iff : ∀ t, t ∈ s.primaries ↔ ∃ r, s.record? t = some r ∧ r.primary = true
  /-- Primaries have started. -/
  started : ∀ t r, s.record? t = some r → r.primary = true → r.started = true
  /-- There are at most as many primaries as slots. -/
  length_le : s.primaries.length ≤ s.live.primaries
  /-- The total order speaks of slots of the round. -/
  bounded : ∀ slot ∈ s.live.order, slot < s.live.primaries
  /-- A round has slots. -/
  positive : 0 < s.live.primaries
  /-- Nobody takes steps of the staged configuration. -/
  staged : s.staged.IsRoundRobin
  /-- The flags tell the truth. -/
  truthful : ∀ t r, s.record? t = some r →
    Truthful s.primaries s.live.order t r
  /-- Before the first round there are no primaries. -/
  unbegun : s.round = 0 → s.primaries = []

variable {s s' : State} {t u : ThreadId} {l : LockId} {slot : Slot}

namespace Seating

/-- As no thread has two slots, the slot of a thread is its place among the primaries. -/
lemma slotOf?_eq_some_iff (h : Seating s) :
    s.slotOf? t = some slot ↔ s.primaries[slot]? = some t := by
  rw [slotOf?, List.idxOf?_eq_some_iff]
  constructor
  · rintro ⟨hlt, hget, -⟩
    rw [List.getElem?_eq_getElem hlt, hget]
  · intro hget
    obtain ⟨hlt, hget⟩ := List.getElem?_eq_some_iff.mp hget
    refine ⟨hlt, hget, fun j hj hj' => ?_⟩
    have hjs : j = slot := (List.getElem_inj h.nodup).mp (hj'.trans hget.symm)
    omega

/-- Every primary has a slot. -/
lemma exists_slot (ht : t ∈ s.primaries) : ∃ slot, s.slotOf? t = some slot := by
  cases hslot : s.slotOf? t with
  | none => exact absurd ht (List.idxOf?_eq_none_iff.mp hslot)
  | some slot => exact ⟨slot, rfl⟩

/-- A primary has one slot. -/
lemma slot_unique (h : Seating s) {slot' : Slot} (ht : s.primaries[slot]? = some t)
    (ht' : s.primaries[slot']? = some t) : slot = slot' := by
  have h1 := h.slotOf?_eq_some_iff.mpr ht
  have h2 := h.slotOf?_eq_some_iff.mpr ht'
  exact Option.some_inj.mp (h1.symm.trans h2)

/-- Whoever has a slot is flagged as a primary. -/
lemma primary_of_slot (h : Seating s) (ht : s.primaries[slot]? = some t) :
    ∃ r, s.record? t = some r ∧ r.primary = true :=
  (h.mem_iff t).mp (List.mem_of_getElem? ht)

/-! ### Changes during a round -/

/-- A change during a round keeps the seating if it takes nobody's seat, shortens the total order
at most, and leaves flags that tell the truth. -/
lemma amend (h : Seating s) {g : ThreadId → ThreadRecord → ThreadRecord}
    (hrecord : ∀ u, s'.record? u = (s.record? u).map (g u))
    (hprimary : ∀ u r, (g u r).primary = r.primary)
    (hstarted : ∀ u r, r.started = true → (g u r).started = true)
    (hprimaries : s'.primaries = s.primaries) (hlive : s'.live.primaries = s.live.primaries)
    (horder : ∀ slot ∈ s'.live.order, slot ∈ s.live.order) (hstaged : s'.staged.IsRoundRobin)
    (hround : s'.round = s.round)
    (htruth : ∀ u r, s.record? u = some r → Truthful s.primaries s.live.order u r →
      Truthful s'.primaries s'.live.order u (g u r)) :
    Seating s' := by
  have hback : ∀ u r', s'.record? u = some r' → ∃ r, s.record? u = some r ∧ g u r = r' := by
    intro u r' hr'
    rw [hrecord] at hr'
    exact Option.map_eq_some_iff.mp hr'
  constructor
  case nodup => exact hprimaries ▸ h.nodup
  case mem_iff =>
    intro u
    rw [hprimaries, h.mem_iff, hrecord]
    constructor
    · rintro ⟨r, hr, hp⟩
      exact ⟨g u r, by simp [hr], by rw [hprimary, hp]⟩
    · rintro ⟨r', hr', hp⟩
      obtain ⟨r, hr, rfl⟩ := Option.map_eq_some_iff.mp hr'
      exact ⟨r, hr, by rw [← hprimary u, hp]⟩
  case started =>
    intro u r' hr' hp
    obtain ⟨r, hr, rfl⟩ := hback u r' hr'
    exact hstarted u r (h.started u r hr (hprimary u r ▸ hp))
  case length_le => exact hprimaries ▸ hlive ▸ h.length_le
  case bounded => exact fun slot hslot => hlive ▸ h.bounded slot (horder slot hslot)
  case positive => exact hlive ▸ h.positive
  case staged => exact hstaged
  case truthful =>
    intro u r' hr'
    obtain ⟨r, hr, rfl⟩ := hback u r' hr'
    exact htruth u r hr (h.truthful u r hr)
  case unbegun => exact hprimaries ▸ hround ▸ h.unbegun

/-- A change that touches neither records nor primaries nor configurations keeps the seating. -/
lemma congr (h : Seating s) (hrecord : ∀ u, s'.record? u = s.record? u)
    (hprimaries : s'.primaries = s.primaries) (hlive : s'.live = s.live)
    (hstaged : s'.staged.IsRoundRobin) (hround : s'.round = s.round) : Seating s' :=
  h.amend (g := fun _ r => r) (fun u => by rw [hrecord, Option.map_id']) (fun _ _ => rfl)
    (fun _ _ => id) hprimaries (congrArg _ hlive) (fun _ => hlive ▸ id) hstaged hround
    fun u r _ htrue => hprimaries ▸ hlive ▸ htrue

/-- A primary without steps may finish. -/
lemma finish (h : Seating s) (ht : s.primaries[slot]? = some t) (hout : slot ∉ s.live.order) :
    Seating (s.finish t) := by
  refine h.amend (fun _ => record?_finish) (fun _ _ => rfl) (fun _ _ => id) rfl rfl (fun _ => id)
    h.staged rfl fun u r hr htrue => ?_
  by_cases hu : u = t
  · subst hu
    obtain ⟨r', hr', hp⟩ := h.primary_of_slot ht
    obtain rfl : r = r' := Option.some_inj.mp (hr.symm.trans hr')
    exact
      { primary := fun _ => hp
        finished := fun slot' ht' _ => h.slot_unique ht ht' ▸ hout
        terminated := htrue.terminated
        waiting := htrue.waiting }
  · rw [if_neg hu]
    exact htrue

/-- A primary may wait for a step that is not the next one. -/
lemma awaitTurn (h : Seating s) (ht : s.primaries[slot]? = some t) (hin : slot ∈ s.live.order)
    (hhead : s.live.order.head? ≠ some slot) : Seating (s.awaitTurn t) := by
  refine h.amend (fun _ => record?_awaitTurn) (fun _ _ => rfl) (fun _ _ => id) rfl rfl (fun _ => id)
    h.staged rfl fun u r hr htrue => ?_
  by_cases hu : u = t
  · subst hu
    obtain ⟨r', hr', hp⟩ := h.primary_of_slot ht
    obtain rfl : r = r' := Option.some_inj.mp (hr.symm.trans hr')
    exact
      { primary := fun _ => hp
        finished := htrue.finished
        terminated := htrue.terminated
        waiting := fun slot' ht' _ => h.slot_unique ht ht' ▸ ⟨hin, hhead⟩ }
  · rw [if_neg hu]
    exact htrue

/-- The owner of the next step is woken, so whoever goes on waiting waits for a later one. -/
lemma waiting_of_headOwner?_ne {order : List Slot} {c : RoundConfig} (hc : c.order = order)
    (ht : s.primaries[slot]? = some t) (hw : s.headOwner? c ≠ some t) :
    order.head? ≠ some slot := by
  intro hhead
  refine hw ?_
  rw [headOwner?, RoundConfig.head?, hc, hhead]
  exact ht

/-- After a turn the order is an end of what it was, and whoever is next does not wait. -/
lemma afterTurn (h : Seating s) (hhead : s.live.order.head? = some slot) :
    Seating (s.afterTurn t slot) := by
  have hrecord := fun u => record?_afterTurn (s := s) (t := t) (u := u) slot
  have hsub : ∀ x ∈ s.live.consume.order, x ∈ s.live.order := fun x hx => List.mem_of_mem_tail hx
  rw [afterTurn_eq] at hrecord ⊢
  refine h.amend hrecord (fun _ _ => rfl) (fun _ _ => id) rfl rfl hsub h.staged rfl
    fun u r hr htrue => ?_
  constructor
  case primary =>
    intro hflag
    refine htrue.primary ?_
    grind
  case finished => exact fun x hx hf hmem => htrue.finished x hx hf (hsub x hmem)
  case terminated => exact fun x hx hf hmem => htrue.terminated x hx hf (hsub x hmem)
  case waiting =>
    intro x hx hw
    have hwoken : s.headOwner? s.live.consume ≠ some u := by
      intro he
      rw [if_pos he] at hw
      cases hw
    rw [if_neg hwoken] at hw
    obtain ⟨hin, hne⟩ := htrue.waiting x hx hw
    refine ⟨?_, waiting_of_headOwner?_ne rfl hx hwoken⟩
    -- The step taken belonged to another slot.
    obtain ⟨rest, hrest⟩ := List.head?_eq_some_iff.mp hhead
    have hxs : x ≠ slot := fun he => hne (he ▸ hhead)
    simpa [RoundConfig.consume, hrest, hxs] using hin

/-- A primary that is awake may retire: its steps are stripped, and whoever is next does not wait.
-/
lemma afterRetirement (h : Seating s) (ht : s.primaries[slot]? = some t)
    (hawake : ∀ r, s.record? t = some r → r.waitingForTurn = false) :
    Seating (s.afterRetirement t slot) := by
  have hrecord := fun u => record?_afterRetirement (s := s) (t := t) (u := u) slot
  have hsub : ∀ x ∈ (s.live.strip slot).order, x ∈ s.live.order := fun x hx =>
    (List.mem_filter.mp hx).1
  rw [afterRetirement_eq] at hrecord ⊢
  refine h.amend hrecord (fun _ _ => rfl) (fun _ _ => id) rfl rfl hsub h.staged rfl
    fun u r hr htrue => ?_
  constructor
  case primary =>
    intro hflag
    by_cases hu : u = t
    · subst hu
      obtain ⟨r', hr', hp⟩ := h.primary_of_slot ht
      obtain rfl : r = r' := Option.some_inj.mp (hr.symm.trans hr')
      exact hp
    · refine htrue.primary ?_
      grind
  case finished => exact fun x hx hf hmem => htrue.finished x hx hf (hsub x hmem)
  case terminated =>
    intro x hx hf hmem
    by_cases hu : u = t
    · subst hu
      obtain rfl := h.slot_unique ht hx
      simp [RoundConfig.strip] at hmem
    · rw [if_neg hu] at hf
      exact htrue.terminated x hx hf (hsub x hmem)
  case waiting =>
    intro x hx hw
    have hwoken : s.headOwner? (s.live.strip slot) ≠ some u := by
      intro he
      rw [if_pos he] at hw
      cases hw
    rw [if_neg hwoken] at hw
    obtain ⟨hin, hne⟩ := htrue.waiting x hx hw
    refine ⟨?_, waiting_of_headOwner?_ne rfl hx hwoken⟩
    -- The thread that retires does not wait, so the waiting one has another slot.
    have hxs : x ≠ slot := by
      rintro rfl
      obtain rfl : u = t := Option.some_inj.mp (hx.symm.trans ht)
      rw [hawake r hr] at hw
      cases hw
    simp [RoundConfig.strip, hin, hxs]

/-- Any order of passes may be staged. -/
lemma staging (h : Seating s) (n steps : Nat) {c : RoundConfig} (hc : c.IsRoundRobin) :
    Seating (s.staging t n steps c) :=
  h.congr (fun _ => rfl) rfl rfl hc rfl

/-- The record of a start is no matter of the slots. -/
lemma recordStart (h : Seating s) (order : List Slot) : Seating (s.recordStart order) :=
  h.congr (fun _ => rfl) rfl rfl h.staged rfl

/-! ### Locks -/

/-- A grant is no matter of the slots. -/
lemma grant (h : Seating s) : Seating (s.grant l t) := h.congr (fun _ => rfl) rfl rfl h.staged rfl

/-- A release is no matter of the slots. -/
lemma release (h : Seating s) : Seating (s.release l) := h.congr (fun _ => rfl) rfl rfl h.staged rfl

/-- A request that is removed is no matter of the slots. -/
lemma forget (h : Seating s) : Seating (s.forget l t) := h.congr (fun _ => rfl) rfl rfl h.staged rfl

/-- A new lock is no matter of the slots. -/
lemma registerLock (h : Seating s) : Seating s.registerLock :=
  h.congr (fun _ => rfl) rfl rfl h.staged rfl

/-- A dropped lock is no matter of the slots. -/
lemma dropLock (h : Seating s) (hl : (s.lock? l).isSome) : Seating (s.dropLock l) := by
  rw [dropLock_eq hl]
  exact h.congr (fun _ => rfl) rfl rfl h.staged rfl

/-- A primary may queue for a lock. -/
lemma enqueue (h : Seating s) (ht : ∀ r, s.record? t = some r → r.primary = true) :
    Seating (s.enqueue l t) := by
  refine h.amend (fun _ => record?_enqueue) (fun _ _ => rfl) (fun _ _ => id) rfl rfl (fun _ => id)
    h.staged rfl fun u r hr htrue => ?_
  refine ⟨fun hflag => ?_, htrue.finished, htrue.terminated, htrue.waiting⟩
  by_cases hu : u = t
  · exact ht r (hu ▸ hr)
  · exact htrue.primary (by simpa only [if_neg hu] using hflag)

/-- Whoever loses a link keeps its slot. -/
lemma detach (h : Seating s) (ts : List ThreadId) : Seating (s.detach ts) := by
  refine h.amend (fun _ => record?_detach ts) (fun _ _ => rfl) (fun _ _ => id) rfl rfl (fun _ => id)
    h.staged rfl fun u r _ htrue => ?_
  refine ⟨fun hflag => htrue.primary ?_, htrue.finished, htrue.terminated, htrue.waiting⟩
  dsimp only at hflag
  split at hflag <;> grind

/-- A lock that is handed over is no matter of the slots. -/
lemma handOver (h : Seating s) : Seating (s.handOver l t) :=
  (h.detach [t]).congr (fun _ => record?_handOver.trans (record?_detach [t]).symm) rfl rfl h.staged
    rfl

/-! ### Rounds -/

/-- While a slot is vacant, a thread that is no primary yet may take it. -/
lemma choose (h : Seating s) {r : ThreadRecord} (hr : s.record? t = some r)
    (hs : r.started = true) (hp : r.primary = false)
    (hlen : s.primaries.length < s.live.primaries) (hround : s.round ≠ 0) :
    Seating (s.choose t) := by
  have hnot : t ∉ s.primaries := by
    rw [h.mem_iff]
    rintro ⟨r', hr', hp'⟩
    rw [Option.some_inj.mp (hr.symm.trans hr'), hp'] at hp
    cases hp
  have hprimaries : (s.choose t).primaries = s.primaries ++ [t] := rfl
  have hback : ∀ u r', (s.choose t).record? u = some r' → ∃ r, s.record? u = some r ∧
      { r with primary := if u = t then true else r.primary } = r' := by
    intro u r' hr'
    rw [record?_choose] at hr'
    exact Option.map_eq_some_iff.mp hr'
  constructor
  case nodup =>
    have hdisj : ∀ a ∈ s.primaries, ∀ b ∈ [t], a ≠ b := by grind
    exact List.nodup_append.mpr ⟨h.nodup, by simp, hdisj⟩
  case mem_iff =>
    intro u
    rw [hprimaries, List.mem_append, List.mem_singleton, h.mem_iff, record?_choose]
    by_cases hu : u = t
    · subst hu
      simp [hr]
    · simp [hu]
  case started =>
    intro u r' hr' hp'
    obtain ⟨r₀, hr₀, rfl⟩ := hback u r' hr'
    by_cases hu : u = t
    · subst hu
      obtain rfl : r = r₀ := Option.some_inj.mp (hr.symm.trans hr₀)
      exact hs
    · exact h.started u r₀ hr₀ (by simpa [hu] using hp')
  case length_le =>
    rw [hprimaries, List.length_append]
    exact hlen
  case bounded => exact h.bounded
  case positive => exact h.positive
  case staged => exact h.staged
  case truthful =>
    intro u r' hr'
    obtain ⟨r₀, hr₀, rfl⟩ := hback u r' hr'
    have htrue := h.truthful u r₀ hr₀
    by_cases hu : u = t
    · -- A thread that is not a primary yet carries no flag.
      subst hu
      obtain rfl : r = r₀ := Option.some_inj.mp (hr.symm.trans hr₀)
      have hclean := mt htrue.primary (by simp [hp])
      simp only [not_or] at hclean
      obtain ⟨hf, hw, ht, -⟩ := hclean
      exact ⟨fun _ => by simp, fun _ _ hf' => absurd hf' hf, fun _ _ ht' => absurd ht' ht,
        fun _ _ hw' => absurd hw' hw⟩
    · have hseat : ∀ x : Slot, (s.choose t).primaries[x]? = some u → s.primaries[x]? = some u := by
        intro x hx
        rw [hprimaries, List.getElem?_append] at hx
        split at hx
        · exact hx
        · grind
      rw [if_neg hu]
      exact ⟨htrue.primary, fun x hx => htrue.finished x (hseat x hx),
        fun x hx => htrue.terminated x (hseat x hx), fun x hx => htrue.waiting x (hseat x hx)⟩
  case unbegun => exact fun hround' => absurd hround' hround

/-! ### Admission -/

/-- A new thread has no slot. -/
lemma enrol (h : Seating s) (hroster : Roster s) : Seating s.enrol := by
  have hold : ∀ u r, s.record? u = some r → u ≠ s.nextThread := by
    rintro u r hr rfl
    have hnone := hroster.nextThread_unknown
    simp [started?, hr] at hnone
  have hback : ∀ u r', s.enrol.record? u = some r' → u = s.nextThread ∧ r' = {} ∨
      s.record? u = some r' := by
    intro u r' hr'
    rw [record?_enrol] at hr'
    split at hr'
    · next hu => exact .inl ⟨hu, (Option.some_inj.mp hr').symm⟩
    · exact .inr hr'
  constructor
  case nodup => exact h.nodup
  case mem_iff =>
    intro u
    refine (h.mem_iff u).trans ⟨?_, ?_⟩
    · rintro ⟨r, hr, hp⟩
      exact ⟨r, by rw [record?_enrol, if_neg (hold u r hr), hr], hp⟩
    · rintro ⟨r', hr', hp⟩
      rcases hback u r' hr' with ⟨-, rfl⟩ | hr
      · cases hp
      · exact ⟨r', hr, hp⟩
  case started =>
    intro u r' hr' hp
    rcases hback u r' hr' with ⟨-, rfl⟩ | hr
    · cases hp
    · exact h.started u r' hr hp
  case length_le => exact h.length_le
  case bounded => exact h.bounded
  case positive => exact h.positive
  case staged => exact h.staged
  case truthful =>
    intro u r' hr'
    rcases hback u r' hr' with ⟨-, rfl⟩ | hr
    · exact ⟨by simp, by simp, by simp, by simp⟩
    · exact h.truthful u r' hr
  case unbegun => exact h.unbegun

/-- To wait to be listed is no matter of the slots. -/
lemma awaitAdmission (h : Seating s) : Seating (s.awaitAdmission t) :=
  h.congr (fun _ => rfl) rfl rfl h.staged rfl

/-- To be listed is no matter of the slots. -/
lemma list (h : Seating s) (w : Work) : Seating (s.list t w) := by
  refine h.amend (fun _ => record?_list w) (fun _ _ => rfl) (fun u r hs => ?_) rfl rfl (fun _ => id)
    h.staged rfl fun _ _ _ htrue =>
    ⟨htrue.primary, htrue.finished, htrue.terminated, htrue.waiting⟩
  dsimp only
  split
  · rfl
  · exact hs

end Seating

/-! ### From one round to the next -/

/-- Nobody sits at a slot: no thread is a primary, finished, waiting or queued, and whoever retired
is still listed. A state is like this between the close of a round and the start of the next. -/
structure Cleared (s : State) : Prop where
  clear : ∀ t r, s.record? t = some r → r.primary = false ∧ r.finished = false ∧
    r.waitingForTurn = false ∧ r.enqueued = none
  listed : ∀ t r, s.record? t = some r → r.terminated = true → t ∈ s.threadList
  staged : s.staged.IsRoundRobin

/-- Before the first round nobody has a flag of a round. -/
lemma Seating.cleared_of_unbegun (h : Seating s) (hround : s.round = 0) : Cleared s := by
  have hprimary : ∀ t r, s.record? t = some r → ¬ r.primary = true := by
    intro t r hr hp
    have hmem := (h.mem_iff t).mpr ⟨r, hr, hp⟩
    rw [h.unbegun hround] at hmem
    cases hmem
  refine ⟨fun t r hr => ?_, fun t r hr hterm => ?_, h.staged⟩
  · have hclean := mt (h.truthful t r hr).primary (hprimary t r hr)
    have hp := hprimary t r hr
    simp_all
  · exact absurd ((h.truthful t r hr).primary (.inr (.inr (.inl hterm)))) (hprimary t r hr)

/-- After the end of a round nobody has a flag of a round. -/
lemma Seating.closeRound_cleared (h : Seating s) (hroster : Roster s) : Cleared s.closeRound := by
  have hback : ∀ t r', s.closeRound.record? t = some r' → ∃ r, s.record? t = some r ∧
      { r with
        primary := if t ∈ s.primaries then false else r.primary
        finished := if t ∈ s.primaries then false else r.finished
        waitingForTurn := if t ∈ s.primaries then false else r.waitingForTurn
        enqueued := if t ∈ s.primaries then none else r.enqueued } = r' := by
    intro t r' hr'
    rw [record?_closeRound] at hr'
    exact Option.map_eq_some_iff.mp hr'
  have hclean : ∀ t r, s.record? t = some r → t ∉ s.primaries → r.primary = false ∧
      r.finished = false ∧ r.waitingForTurn = false ∧ r.enqueued = none ∧ r.terminated = false := by
    intro t r hr hnot
    have hp : ¬ r.primary = true := fun hp => hnot ((h.mem_iff t).mpr ⟨r, hr, hp⟩)
    have hflags := mt (h.truthful t r hr).primary hp
    simp_all
  refine ⟨fun t r' hr' => ?_, fun t r' hr' hterm => ?_, h.staged⟩
  · obtain ⟨r, hr, rfl⟩ := hback t r' hr'
    by_cases hmem : t ∈ s.primaries
    · simp [hmem]
    · have := hclean t r hr hmem
      simp [hmem, this]
  · obtain ⟨r, hr, rfl⟩ := hback t r' hr'
    have hp := (h.truthful t r hr).primary (.inr (.inr (.inl hterm)))
    exact hroster.mem_list hr (h.started t r hr hp)

/-- After the start of a round no thread has a flag and none is retired. -/
lemma Cleared.record?_beginRound (h : Cleared s) (hkeys : s.records.keys.Nodup) {r : ThreadRecord}
    (hr : s.beginRound.record? t = some r) : r.primary = false ∧ r.finished = false ∧
      r.waitingForTurn = false ∧ r.enqueued = none ∧ r.terminated = false := by
  rw [State.record?_beginRound hkeys] at hr
  obtain ⟨r₀, hr₀, rfl⟩ := Option.map_eq_some_iff.mp hr
  obtain ⟨hr₀, hkept⟩ := Option.filter_eq_some_iff.mp hr₀
  obtain ⟨hp, hf, hw, hq⟩ := h.clear t r₀ hr₀
  refine ⟨hp, hf, hw, hq, ?_⟩
  cases hterm : r₀.terminated with
  | false => rfl
  | true => simp [hterm, h.listed t r₀ hr₀ hterm] at hkept

/-- A round that begins without flags is seated: its slots are vacant. -/
lemma Cleared.seating_beginRound (h : Cleared s) (hkeys : s.records.keys.Nodup) :
    Seating s.beginRound := by
  constructor
  case nodup => simp
  case mem_iff =>
    intro t
    have hclean : ∀ r, s.beginRound.record? t = some r → r.primary = false := fun r hr =>
      (h.record?_beginRound hkeys hr).1
    grind [primaries_beginRound]
  case started =>
    intro t r hr hp
    rw [(h.record?_beginRound hkeys hr).1] at hp
    cases hp
  case length_le => simp
  case bounded => exact live_beginRound ▸ h.staged.bounded
  case positive => exact live_beginRound ▸ h.staged.1
  case staged => exact (staged_beginRound (s := s)).symm ▸ h.staged
  case truthful =>
    intro t r hr
    obtain ⟨-, hf, hw, hq, hterm⟩ := h.record?_beginRound hkeys hr
    exact ⟨by simp [hf, hw, hq, hterm], by simp [hf], by simp [hterm], by simp [hw]⟩
  case unbegun => simp

end State

end RoundScheduler
