import RoundScheduler.Proofs.Determinism.Desk

/-!
# Courses

The course of a run is what is left of a system once it is forgotten where the callers stand: the
round with its primaries and its steps, who fills it and how far, and the desk. It goes on by deeds
of threads, by arrivals, by filling the round and by beginning the next one. A round is over when
none of its primaries can do anything. A sound course says enough about threads that are no
primaries: they own locks only while they ask for a step or after they retired.
-/

namespace RoundScheduler

open Function

/-- What is left of a system without the places of its callers. -/
structure Course where
  /-- The number of the round. -/
  round : Nat := 0
  /-- How many threads were listed. -/
  listed : Nat := 0
  /-- The threads that are listed. -/
  roster : List ThreadId := []
  /-- The primaries, as far as they are chosen. -/
  primaries : List ThreadId := []
  /-- The configuration of the round, with the steps that are left. -/
  live : RoundConfig
  /-- The configuration of the next round. -/
  staged : RoundConfig
  /-- How many threads were looked at to fill the round, and its configuration at the start. -/
  filling : Option (Nat × RoundConfig) := none
  /-- Who retired since the round began. -/
  retired : ThreadId → Bool := fun _ => false
  /-- The routines and the locks. -/
  desk : Desk
  /-- The turns taken. -/
  turns : List (Nat × ThreadId × Slot) := []
  /-- The rounds filled. -/
  starts : List (Nat × List ThreadId × List Slot) := []

/-- What a thread does to its course. -/
inductive Deed where
  /-- Its instruction ends without a step. -/
  | pass (v : Verdict)
  /-- It releases a lock that it owns. -/
  | give (l : LockId)
  /-- It takes the next step. -/
  | step (slot : Slot) (p : Purpose)
  /-- It retires. -/
  | retire (slot : Slot)
  deriving DecidableEq

namespace Course

variable (c : Course) (t : ThreadId)

/-- The thread can go on with its routine: it is listed, it has not retired, and it waits for no
lock. -/
structure Active : Prop where
  listed : t ∈ c.roster
  unretired : c.retired t = false
  unlinked : c.desk.link t = none

/-- What a thread does next, if it need not wait. -/
inductive Does : Deed → Prop
  /-- It is refused the release of a lock that it does not own. -/
  | refused (l : LockId) (hactive : c.Active t) (hnext : c.desk.next? t = some (.unlock l))
    (howner : c.desk.owner l ≠ some t) : Does (.pass .refused)
  /-- It releases a lock. -/
  | give (l : LockId) (hactive : c.Active t) (hnext : c.desk.next? t = some (.unlock l))
    (howner : c.desk.owner l = some t) : Does (.give l)
  /-- It fails by asking for a lock that it owns. -/
  | failed (p : Purpose) (l : LockId) (hactive : c.Active t)
    (hnext : c.desk.next? t = some (.step p)) (hlock : p.lock? = some l)
    (howner : c.desk.owner l = some t) : Does (.pass .failed)
  /-- It takes the next step, which belongs to its slot. -/
  | step (slot : Slot) (p : Purpose) (hactive : c.Active t)
    (hnext : c.desk.next? t = some (.step p))
    (howner : ∀ l, p.lock? = some l → c.desk.owner l ≠ some t)
    (hhead : c.live.order.head? = some slot) (hslot : c.primaries[slot]? = some t) :
    Does (.step slot p)
  /-- It retires as a primary. -/
  | retire (slot : Slot) (hactive : c.Active t) (hnext : c.desk.next? t = none)
    (hslot : c.primaries.idxOf? t = some slot) : Does (.retire slot)

/-- The course after a deed of a thread. -/
def act : Deed → Course
  | .pass v => { c with desk := c.desk.pass t v }
  | .give l => { c with desk := c.desk.give t l }
  | .step slot p =>
    { c with
      live := c.live.consume
      staged := p.revise c.staged
      desk := c.desk.serve c.staged t p
      turns := c.turns ++ [(c.round, t, slot)] }
  | .retire slot =>
    { c with
      live := c.live.strip slot
      retired := update c.retired t true }

/-- The course after the next round began. -/
def nextRound : Course :=
  { c with
    round := c.round + 1
    roster := c.roster.filter fun t => !c.retired t
    primaries := []
    live := c.staged
    filling := some (0, c.staged)
    retired := fun _ => false
    desk := c.desk.clear }

/-- The course after a look at a thread, to fill the round. -/
def look (eligible : ThreadId → Bool) (index : Nat) (plan : RoundConfig) : Course :=
  { c with
    primaries := if eligible t then c.primaries ++ [t] else c.primaries
    filling := some (index + 1, plan) }

/-- The course after the round was filled. -/
def fill (plan : RoundConfig) : Course :=
  { c with
    filling := none
    starts := c.starts ++ [(c.round, c.primaries, plan.order)] }

/-- The course after a thread was listed. -/
def list : Course :=
  { c with
    listed := c.listed + 1
    roster := c.roster ++ [⟨c.listed⟩] }

end Course

/-- A way for a course to go on. -/
inductive Label where
  /-- A thread is listed. -/
  | list
  /-- The round is filled a little further. -/
  | fill
  /-- The next round begins. -/
  | next
  /-- A thread does what it does next. -/
  | act (t : ThreadId)
  deriving DecidableEq

namespace Course

/-- A course goes on in one of the ways. -/
inductive Fires (eligible : ThreadId → Bool) (c : Course) : Label → Course → Prop
  /-- A thread is listed. -/
  | list : Fires eligible c .list c.list
  /-- The next thread is looked at. -/
  | look (index : Nat) (plan : RoundConfig) (t : ThreadId)
    (hfilling : c.filling = some (index, plan)) (hlen : c.primaries.length < plan.primaries)
    (ht : c.roster[index]? = some t) : Fires eligible c .fill (c.look t eligible index plan)
  /-- There are enough primaries. -/
  | fill (index : Nat) (plan : RoundConfig) (hfilling : c.filling = some (index, plan))
    (hlen : plan.primaries ≤ c.primaries.length) : Fires eligible c .fill (c.fill plan)
  /-- None of the primaries can do anything. -/
  | next (hfilling : c.filling = none) (hstuck : ∀ t ∈ c.primaries, ∀ e, ¬ c.Does t e) :
    Fires eligible c .next c.nextRound
  /-- A thread does something. -/
  | act (t : ThreadId) (e : Deed) (h : c.Does t e) : Fires eligible c (.act t) (c.act t e)

/-- A course stays what it is, or goes on once. -/
def Follows (eligible : ThreadId → Bool) (c c' : Course) : Prop :=
  c' = c ∨ ∃ a, Fires eligible c a c'

/-- What holds of the course of an agenda with some routines. -/
structure Sound (routine : Nat → Routine) (c : Course) : Prop where
  desk : c.desk.Sound
  /-- Only primaries wait for locks. -/
  seated : ∀ t l, c.desk.link t = some l → t ∈ c.primaries
  listed : ∀ t ∈ c.primaries, t ∈ c.roster
  numbered : ∀ t ∈ c.roster, t.raw < c.listed
  retired : ∀ t, c.retired t = true → t ∈ c.roster
  /-- Who owns a lock without being a primary asks for a step or retired. -/
  asking : ∀ t l, t ∈ c.roster → t ∉ c.primaries → c.desk.owner l = some t →
    c.retired t = false → ∃ p, c.desk.next? t = some (.step p) ∧
      ∀ m, p.lock? = some m → c.desk.owner m ≠ some t
  /-- Who was not listed did nothing. -/
  fresh : ∀ t, c.listed ≤ t.raw → c.desk.todo t = routine t.raw
  owned : ∀ t l, c.desk.owner l = some t → t.raw < c.listed

variable {eligible : ThreadId → Bool} {routine : Nat → Routine} {c c' : Course} {t u : ThreadId}
  {a b : Label} {e e' : Deed}

/-! ### What a thread does is determined -/

/-- Whoever does something can go on. -/
lemma Does.active (h : c.Does t e) : c.Active t := by
  cases h <;> assumption

/-- There is at most one thing that a thread does next. -/
lemma Does.determined (h : c.Does t e) (h' : c.Does t e') : e = e' := by
  cases h <;> cases h' <;> grind

/-- There is at most one course to which a label leads. -/
lemma Fires.determined {c₁ c₂ : Course} (h : Fires eligible c a c₁) (h' : Fires eligible c a c₂) :
    c₁ = c₂ := by
  cases h with
  | list => cases h'; rfl
  | look index plan t hfilling hlen ht =>
    cases h' with
    | look index' plan' t' hfilling' hlen' ht' => grind
    | fill index' plan' hfilling' hlen' => grind
  | fill index plan hfilling hlen =>
    cases h' with
    | look index' plan' t' hfilling' hlen' ht' => grind
    | fill index' plan' hfilling' hlen' => grind
  | next => cases h'; rfl
  | act t e h =>
    cases h' with
    | act _ e' h' => rw [h.determined h']

/-! ### What a deed leaves alone -/

/-- What a thread does leaves the round. -/
@[simp] lemma round_act : (c.act t e).round = c.round := by cases e <;> rfl

/-- What a thread does leaves the number of listed threads. -/
@[simp] lemma listed_act : (c.act t e).listed = c.listed := by cases e <;> rfl

/-- What a thread does leaves the roster. -/
@[simp] lemma roster_act : (c.act t e).roster = c.roster := by cases e <;> rfl

/-- What a thread does leaves the primaries. -/
@[simp] lemma primaries_act : (c.act t e).primaries = c.primaries := by cases e <;> rfl

/-- What a thread does leaves the filling of the round. -/
@[simp] lemma filling_act : (c.act t e).filling = c.filling := by cases e <;> rfl

/-- What a thread does starts no round. -/
@[simp] lemma starts_act : (c.act t e).starts = c.starts := by cases e <;> rfl

/-- A thread retires only itself. -/
lemma retired_act_of_ne (hut : u ≠ t) : (c.act t e).retired u = c.retired u := by
  cases e with
  | retire slot => exact update_of_ne hut _ _
  | _ => rfl

/-- Others are left alone by a deed, unless they are handed a lock. -/
lemma Does.spared_or_handed (h : c.Does t e) (hs : c.desk.Sound) (hut : u ≠ t) :
    Desk.Spared c.desk (c.act t e).desk u ∨ ∃ l, Desk.Handed c.desk (c.act t e).desk u l := by
  cases h with
  | refused | failed => exact .inl (Desk.spared_pass hut)
  | give l _ _ howner =>
    exact (Desk.spared_or_handed_give hs howner hut).imp_right fun hl => ⟨l, hl⟩
  | step slot p => exact .inl (Desk.spared_serve hut c.staged p)
  | retire slot => exact .inl (.refl _ _)

/-- Others who wait for no lock are left alone by a deed. -/
lemma Does.spared (h : c.Does t e) (hs : c.desk.Sound) (hut : u ≠ t) (hu : c.desk.link u = none) :
    Desk.Spared c.desk (c.act t e).desk u := by
  refine (h.spared_or_handed hs hut).resolve_right ?_
  rintro ⟨l, hhanded⟩
  simp [hhanded.link_before] at hu

/-! ### Courses stay sound -/

/-- Who can act without being a primary owns no lock and is refused its release. -/
lemma Sound.does_of_not_primary (hs : c.Sound routine) (h : c.Does t e) (ht : t ∉ c.primaries) :
    e = .pass .refused ∧ ∀ l, c.desk.owner l ≠ some t := by
  have hasks : ∀ l, c.desk.owner l = some t → ∃ p, c.desk.next? t = some (.step p) ∧
      ∀ m, p.lock? = some m → c.desk.owner m ≠ some t := fun l howner =>
    hs.asking t l h.active.listed ht howner h.active.unretired
  cases h with
  | refused l _ hnext howner =>
    refine ⟨rfl, fun m hm => ?_⟩
    obtain ⟨p, hp, -⟩ := hasks m hm
    cases hnext.symm.trans hp
  | give l _ hnext howner =>
    obtain ⟨p, hp, -⟩ := hasks l howner
    cases hnext.symm.trans hp
  | failed p l _ hnext hlock howner =>
    obtain ⟨q, hq, hne⟩ := hasks l howner
    cases hnext.symm.trans hq
    exact absurd howner (hne l hlock)
  | step slot p _ _ _ _ hslot => exact absurd (List.mem_of_getElem? hslot) ht
  | retire slot _ _ hslot =>
    obtain ⟨hlt, hget, -⟩ := List.idxOf?_eq_some_iff.mp hslot
    exact absurd (hget ▸ List.getElem_mem hlt) ht

/-- A primary that can do nothing and has not retired asks for a step, maybe in a queue. -/
lemma Sound.asking_of_stuck (hs : c.Sound routine) (hstuck : ∀ e, ¬ c.Does t e)
    (ht : t ∈ c.primaries) (hretired : c.retired t = false) :
    ∃ p, c.desk.next? t = some (.step p) ∧ ∀ m, p.lock? = some m → c.desk.owner m ≠ some t := by
  cases hlink : c.desk.link t with
  | some l =>
    obtain ⟨hnext, howner⟩ := hs.desk.asking t l hlink
    refine ⟨_, hnext, fun m hm => ?_⟩
    cases hm
    exact howner
  | none =>
    have hactive : c.Active t := ⟨hs.listed t ht, hretired, hlink⟩
    cases hnext : c.desk.next? t with
    | none =>
      cases hslot : c.primaries.idxOf? t with
      | none => exact absurd ht (List.idxOf?_eq_none_iff.mp hslot)
      | some slot => exact absurd (.retire slot hactive hnext hslot) (hstuck _)
    | some order =>
      cases order with
      | unlock l =>
        by_cases howner : c.desk.owner l = some t
        · exact absurd (.give l hactive hnext howner) (hstuck _)
        · exact absurd (.refused l hactive hnext howner) (hstuck _)
      | step p =>
        exact ⟨p, rfl, fun m hm howner => hstuck _ (.failed p m hactive hnext hm howner)⟩

/-- The desk stays sound whatever a thread does. -/
lemma Sound.desk_act (hs : c.Sound routine) (h : c.Does t e) : (c.act t e).desk.Sound := by
  have hunlinked := h.active.unlinked
  cases h with
  | refused | failed => exact hs.desk.pass hunlinked
  | give l _ _ howner => exact hs.desk.give hunlinked howner
  | step slot p _ hnext howner => exact hs.desk.serve hunlinked hnext howner c.staged
  | retire slot => exact hs.desk

/-- Only primaries take part in what is done with locks. -/
lemma Does.link_act (h : c.Does t e) (hs : c.Sound routine) {l : LockId}
    (hu : (c.act t e).desk.link u = some l) : u ∈ c.primaries := by
  by_cases hut : u = t
  · subst hut
    have hunlinked := h.active.unlinked
    by_cases hprimary : u ∈ c.primaries
    · exact hprimary
    · obtain ⟨rfl, -⟩ := hs.does_of_not_primary h hprimary
      simp [act, Desk.pass, hunlinked] at hu
  · rcases h.spared_or_handed hs.desk hut with hspared | ⟨m, hhanded⟩
    · exact hs.seated u l (hspared.link ▸ hu)
    · exact hs.seated u m hhanded.link_before

/-- A deed keeps a course sound. -/
lemma Sound.act (hs : c.Sound routine) (h : c.Does t e) : (c.act t e).Sound routine where
  desk := hs.desk_act h
  seated u l hu := by simpa using h.link_act hs hu
  listed := by simpa using hs.listed
  numbered := by simpa using hs.numbered
  retired u hu := by
    rw [roster_act]
    by_cases hut : u = t
    · exact hut ▸ h.active.listed
    · exact hs.retired u (retired_act_of_ne hut ▸ hu)
  asking u l hu hprimary howner hretired := by
    rw [roster_act] at hu
    rw [primaries_act] at hprimary
    by_cases hut : u = t
    · subst hut
      obtain ⟨rfl, hnone⟩ := hs.does_of_not_primary h hprimary
      exact absurd howner (hnone l)
    · rcases h.spared_or_handed hs.desk hut with hspared | ⟨m, hhanded⟩
      · obtain ⟨p, hp, hne⟩ := hs.asking u l hu hprimary ((hspared.owner l).mp howner)
          (retired_act_of_ne hut ▸ hretired)
        exact ⟨p, hspared.next?.trans hp, fun m hm => mt (hspared.owner m).mp (hne m hm)⟩
      · exact absurd (hs.seated u m hhanded.link_before) hprimary
  fresh u hu := by
    rw [listed_act] at hu
    have hut : u ≠ t := by
      rintro rfl
      exact absurd (hs.numbered u h.active.listed) (Nat.not_lt.mpr hu)
    rcases h.spared_or_handed hs.desk hut with hspared | ⟨m, hhanded⟩
    · exact hspared.todo.trans (hs.fresh u hu)
    · have hlisted := hs.listed u (hs.seated u m hhanded.link_before)
      exact absurd (hs.numbered u hlisted) (Nat.not_lt.mpr hu)
  owned u l hu := by
    rw [listed_act]
    by_cases hut : u = t
    · exact hut ▸ hs.numbered t h.active.listed
    · rcases h.spared_or_handed hs.desk hut with hspared | ⟨m, hhanded⟩
      · exact hs.owned u l ((hspared.owner l).mp hu)
      · exact hs.numbered u (hs.listed u (hs.seated u m hhanded.link_before))

/-- The beginning of a round keeps a course sound. -/
lemma Sound.nextRound (hs : c.Sound routine) (hstuck : ∀ t ∈ c.primaries, ∀ e, ¬ c.Does t e) :
    c.nextRound.Sound routine where
  desk := .clear _
  seated t l ht := by cases ht
  listed := nofun
  numbered t ht := hs.numbered t (List.mem_filter.mp ht).1
  retired := nofun
  asking t l ht _ howner _ := by
    obtain ⟨hroster, hretired⟩ := List.mem_filter.mp ht
    have hretired : c.retired t = false := by simpa using hretired
    by_cases hprimary : t ∈ c.primaries
    · exact hs.asking_of_stuck (hstuck t hprimary) hprimary hretired
    · exact hs.asking t l hroster hprimary howner hretired
  fresh := hs.fresh
  owned := hs.owned

/-- A thread that is listed keeps a course sound. -/
lemma Sound.list (hs : c.Sound routine) : c.list.Sound routine where
  desk := hs.desk
  seated := hs.seated
  listed t ht := List.mem_append_left _ (hs.listed t ht)
  numbered t ht := by
    rcases List.mem_append.mp ht with ht | ht
    · exact Nat.lt_succ_of_lt (hs.numbered t ht)
    · rw [List.mem_singleton.mp ht]
      exact Nat.lt_succ_self _
  retired t ht := List.mem_append_left _ (hs.retired t ht)
  asking t l ht hprimary howner := by
    refine hs.asking t l ?_ hprimary howner
    rcases List.mem_append.mp ht with ht | ht
    · exact ht
    · have hlt := hs.owned t l howner
      rw [List.mem_singleton.mp ht] at hlt
      exact absurd hlt (Nat.lt_irrefl _)
  fresh t ht := hs.fresh t (Nat.le_of_succ_le ht)
  owned t l howner := Nat.lt_succ_of_lt (hs.owned t l howner)

/-- A look at a thread keeps a course sound. -/
lemma Sound.look (hs : c.Sound routine) {index : Nat} (plan : RoundConfig)
    (ht : c.roster[index]? = some t) : (c.look t eligible index plan).Sound routine := by
  have hsub : ∀ u ∈ c.primaries, u ∈ (c.look t eligible index plan).primaries := by
    intro u hu
    simp only [Course.look]
    split
    · exact List.mem_append_left _ hu
    · exact hu
  constructor
  case desk => exact hs.desk
  case seated => exact fun u l hu => hsub u (hs.seated u l hu)
  case listed =>
    intro u hu
    simp only [Course.look] at hu
    split at hu
    · rcases List.mem_append.mp hu with hu | hu
      · exact hs.listed u hu
      · rw [List.mem_singleton.mp hu]
        exact List.mem_of_getElem? ht
    · exact hs.listed u hu
  case numbered => exact hs.numbered
  case retired => exact hs.retired
  case asking => exact fun u l hu hprimary => hs.asking u l hu (mt (hsub u) hprimary)
  case fresh => exact hs.fresh
  case owned => exact hs.owned

/-- However a course goes on, it stays sound. -/
theorem Sound.fires (hs : c.Sound routine) (h : Fires eligible c a c') : c'.Sound routine := by
  cases h with
  | list => exact hs.list
  | look index plan t hfilling hlen ht => exact hs.look plan ht
  | fill index plan hfilling hlen =>
    exact ⟨hs.desk, hs.seated, hs.listed, hs.numbered, hs.retired, hs.asking, hs.fresh, hs.owned⟩
  | next hfilling hstuck => exact hs.nextRound hstuck
  | act t e h => exact hs.act h

end Course

end RoundScheduler
