import RoundScheduler.Proofs.Determinism.Diamond
import RoundScheduler.Proofs.Workload.Contention

/-!
# The groups of the lock workload

In a round of a group the primaries are its units, as far as they are listed, and the steps that are
left are those of the plan except for the units that retired. Nobody is in the queue of the lock
when a round closes: its owner would be a primary that can release it. So a round ends only after
all of its steps, or once the whole group retired, and `Underway` holds from the first round on.
-/

namespace RoundScheduler

open Function

namespace Workload

/-- How many turns a unit took, by its number, after some turns of a group. -/
def share (w : Workload) (cfg : Config) (g x i : Nat) : Nat :=
  if i < g * cfg.primaries then w.criticalSections
  else if i < g * cfg.primaries + cfg.primaries then
    stepsInTurn cfg.primaries x (i - g * cfg.primaries)
  else 0

/-- The group `g` is in its round `q`, and `x` of its turns were taken. -/
structure Underway (w : Workload) (cfg : Config) (g q x : Nat) (c : Course) : Prop where
  round : c.round = g * w.roundsPerGroup cfg + q + 1
  round_lt : q < w.roundsPerGroup cfg
  /-- The turns of the earlier rounds of the group were taken. -/
  lower : q * cfg.stepsPerPrimary * cfg.primaries ≤ x
  upper : x ≤ (q + 1) * cfg.stepsPerPrimary * cfg.primaries
  /-- After the last group nothing happens. -/
  group : g < w.groups cfg.primaries ∨ q = 0 ∧ x = 0
  listed : g * cfg.primaries ≤ c.listed
  /-- The units of earlier groups are gone. -/
  roster : c.roster =
    (List.range' (g * cfg.primaries) (c.listed - g * cfg.primaries)).map ThreadId.mk
  gone : ∀ t : ThreadId, t.raw < g * cfg.primaries → c.desk.todo t = []
  seated : c.primaries = c.roster.take c.primaries.length
  length_le : c.primaries.length ≤ cfg.primaries
  filling : ∀ index plan, c.filling = some (index, plan) → index = c.primaries.length ∧
    plan = ⟨cfg.primaries, RoundConfig.passes cfg.primaries cfg.stepsPerPrimary⟩
  filled : c.filling = none → c.primaries.length = cfg.primaries
  /-- Only the steps of units that retired are missing. -/
  order : c.live.order =
    ((RoundConfig.passes cfg.primaries cfg.stepsPerPrimary).drop
      (x - q * cfg.stepsPerPrimary * cfg.primaries)).filter
        fun slot => !c.retired ⟨g * cfg.primaries + slot⟩
  retired : ∀ t, c.retired t = true → c.desk.todo t = []
  retired_seated : ∀ t, c.retired t = true → t ∈ c.primaries
  taken : ∀ t : ThreadId, c.taken t = w.share cfg g x t.raw
  turns : c.turns = w.turnsUntil cfg g x
  starts : c.starts = w.startsUntil cfg g (if c.filling.isSome then q else q + 1)

namespace Underway

variable {w : Workload} {cfg : Config} {g q x : Nat} {c : Course} {t : ThreadId} {slot : Nat}
  {e : Deed} {routine : Nat → Routine}

/-! ### Seats -/

/-- The slots of a round belong to the units of its group, in their order. -/
lemma eq_of_slot (h : Underway w cfg g q x c) (hslot : c.primaries[slot]? = some t) :
    t = ⟨g * cfg.primaries + slot⟩ ∧ slot < cfg.primaries ∧
      g * cfg.primaries + slot < c.listed := by
  have hlen : slot < c.primaries.length := (List.getElem?_eq_some_iff.mp hslot).1
  rw [h.seated, List.getElem?_take_of_lt hlen, h.roster, List.getElem?_map,
    Option.map_eq_some_iff] at hslot
  obtain ⟨i, hi, rfl⟩ := hslot
  obtain ⟨hlt, rfl⟩ := List.getElem?_eq_some_iff.mp hi
  rw [List.length_range'] at hlt
  simp only [List.getElem_range', Nat.one_mul, true_and]
  exact ⟨Nat.lt_of_lt_of_le hlen h.length_le, by omega⟩

/-- The primaries of a full round are the units of its group. -/
lemma primaries_of_full (h : Underway w cfg g q x c) (hfull : c.primaries.length = cfg.primaries) :
    c.primaries = (List.range cfg.primaries).map fun i => ⟨g * cfg.primaries + i⟩ := by
  refine List.ext_getElem (by simp [hfull]) fun slot hslot _ => ?_
  rw [(h.eq_of_slot (List.getElem?_eq_getElem hslot)).1]
  simp

/-- Every unit of the group is a primary of a full round. -/
lemma mem_primaries (h : Underway w cfg g q x c) (hfull : c.primaries.length = cfg.primaries)
    (hle : g * cfg.primaries ≤ t.raw) (hlt : t.raw < g * cfg.primaries + cfg.primaries) :
    t ∈ c.primaries := by
  rw [h.primaries_of_full hfull, List.mem_map]
  exact ⟨t.raw - g * cfg.primaries, List.mem_range.mpr (by omega), by
    rw [Nat.add_sub_cancel' hle]⟩

/-- A group with all its seats taken is one of the groups. -/
lemma group_lt (h : Underway w cfg g q x c) (hc : Contention w cfg c)
    (hslot : c.primaries[slot]? = some t) : g < w.groups cfg.primaries := by
  have hlt := (h.eq_of_slot hslot).2.2
  refine Nat.lt_of_mul_lt_mul_right (a := cfg.primaries) ?_
  exact Nat.lt_of_le_of_lt (Nat.le_add_right _ slot) (Nat.lt_of_lt_of_le hlt hc.listed_le)

/-- The share of a unit in the steps of its group is that of its slot. -/
lemma share_of_slot (hslot : slot < cfg.primaries) (x : Nat) :
    w.share cfg g x (g * cfg.primaries + slot) = stepsInTurn cfg.primaries x slot := by
  rw [share, if_neg (by omega), if_pos (by omega), Nat.add_sub_cancel_left]

/-- There are no more groups under way than are planned. -/
lemma group_le (h : Underway w cfg g q x c) (hc : Contention w cfg c)
    (hprimaries : 0 < cfg.primaries) : g ≤ w.groups cfg.primaries :=
  Nat.le_of_mul_le_mul_right (Nat.le_trans h.listed hc.listed_le) hprimaries

/-- A group takes no more turns than it has critical sections. -/
lemma le_sections (h : Underway w cfg g q x c) (hc : Contention w cfg c)
    (hprimaries : 0 < cfg.primaries) : x ≤ w.criticalSections * cfg.primaries := by
  rcases h.group with hgroup | ⟨-, rfl⟩
  · refine le_mul_of_stepsInTurn_le hprimaries ?_
    rw [← share_of_slot (w := w) (g := g) hprimaries, ← h.taken ⟨g * cfg.primaries + 0⟩]
    exact (hc.standing _ (Nat.mul_lt_mul_of_pos_right hgroup hprimaries)).le
  · exact Nat.zero_le _

/-! ### A unit does something -/

/-- A unit with nothing left to do took all of its turns. -/
lemma taken_of_done (hc : Contention w cfg c) (ht : t.raw < w.size cfg)
    (htodo : c.desk.todo t = []) : c.taken t = w.criticalSections ∧ c.desk.owner lock ≠ some t := by
  cases hc.standing t ht with
  | between hle hsections howner =>
    refine ⟨Nat.le_antisymm hle ?_, howner⟩
    cases hleft : w.criticalSections - c.taken t with
    | zero => exact Nat.le_of_sub_eq_zero hleft
    | succ n =>
      rw [htodo, hleft, sections_succ] at hsections
      cases hsections
  | waiting _ _ hsections =>
    rw [htodo, sections_succ] at hsections
    cases hsections
  | holding _ _ hsections =>
    rw [htodo] at hsections
    cases hsections

/-- Who has nothing left to do gets nothing to do. -/
lemma todo_act (hs : c.Sound routine) (hdoes : c.Does t e)
    {u : ThreadId} (hut : u ≠ t) (htodo : c.desk.todo u = []) :
    (c.act t e).desk.todo u = [] := by
  rcases hdoes.spared_or_handed hs.desk hut with hspared | ⟨l, hhanded⟩
  · exact hspared.todo.trans htodo
  · rw [hhanded.todo, htodo]
    rfl

/-- The next step belongs to the unit whose turn it is by the plan. -/
lemma head_order (h : Underway w cfg g q x c) (hc : Contention w cfg c)
    (hs : c.Sound routine) (hhead : c.live.order.head? = some slot)
    (hslot : c.primaries[slot]? = some t) (hlt : c.taken t < w.criticalSections) :
    slot = x % cfg.primaries ∧ x + 1 ≤ (q + 1) * cfg.stepsPerPrimary * cfg.primaries ∧
      c.live.order.tail = ((RoundConfig.passes cfg.primaries cfg.stepsPerPrimary).drop
        (x + 1 - q * cfg.stepsPerPrimary * cfg.primaries)).filter
          fun slot => !c.retired ⟨g * cfg.primaries + slot⟩ := by
  obtain ⟨rfl, hbelow, hlisted⟩ := h.eq_of_slot hslot
  obtain ⟨y, rfl⟩ := Nat.exists_eq_add_of_le h.lower
  have horder := h.order
  rw [Nat.add_sub_cancel_left] at horder
  have hsplit : (q + 1) * cfg.stepsPerPrimary * cfg.primaries =
      q * cfg.stepsPerPrimary * cfg.primaries + cfg.stepsPerPrimary * cfg.primaries := by
    rw [Nat.succ_mul, Nat.add_mul]
  have hmod : (q * cfg.stepsPerPrimary * cfg.primaries + y) % cfg.primaries =
      y % cfg.primaries := by
    rw [Nat.mul_comm, Nat.mul_add_mod]
  have hy : y < cfg.stepsPerPrimary * cfg.primaries := by
    by_contra hover
    rw [List.drop_eq_nil_of_le (by rw [RoundConfig.length_passes]; omega)] at horder
    rw [horder] at hhead
    cases hhead
  rw [RoundConfig.drop_passes hy] at horder
  have hnext : y % cfg.primaries < cfg.primaries := Nat.mod_lt y (Nat.zero_lt_of_lt hbelow)
  -- Nobody is ahead of whoever is next, so that unit has turns left.
  have hactive : c.retired ⟨g * cfg.primaries + y % cfg.primaries⟩ = false := by
    refine Bool.eq_false_iff.mpr fun hretired => ?_
    have hnumber := hc.lt_size hs (hs.retired _ hretired)
    obtain ⟨hall, -⟩ := taken_of_done hc hnumber (h.retired _ hretired)
    rw [h.taken, share_of_slot hnext, ← hmod, stepsInTurn_mod] at hall
    rw [h.taken, share_of_slot hbelow] at hlt
    exact Nat.not_lt.mpr (hall ▸ div_le_stepsInTurn _ _ slot) hlt
  rw [List.filter_cons_of_pos (by rw [hactive]; rfl)] at horder
  rw [horder] at hhead ⊢
  obtain rfl : y % cfg.primaries = slot := Option.some_inj.mp hhead
  refine ⟨hmod.symm, by omega, ?_⟩
  rw [List.tail_cons, Nat.add_assoc, Nat.add_sub_cancel_left]

/-- The next step of the group is the share of one unit. -/
lemma share_succ (hprimaries : 0 < cfg.primaries) (i : Nat) :
    w.share cfg g (x + 1) i = w.share cfg g x i +
      if i = g * cfg.primaries + x % cfg.primaries then 1 else 0 := by
  have hmod := Nat.mod_lt x hprimaries
  rw [share, share]
  by_cases hbefore : i < g * cfg.primaries
  · rw [if_pos hbefore, if_pos hbefore, if_neg (by omega), Nat.add_zero]
  by_cases hwithin : i < g * cfg.primaries + cfg.primaries
  · rw [if_neg hbefore, if_pos hwithin, if_neg hbefore, if_pos hwithin,
      stepsInTurn_succ hprimaries (by omega)]
    congr 1
    exact if_congr (by omega) rfl rfl
  · rw [if_neg hbefore, if_neg hwithin, if_neg hbefore, if_neg hwithin, if_neg (by omega)]

/-- The plan has the next turn in the round of the group. -/
lemma turnAt_eq (h : Underway w cfg g q x c)
    (hupper : x + 1 ≤ (q + 1) * cfg.stepsPerPrimary * cfg.primaries) :
    w.turnAt cfg g x =
      (c.round, ⟨g * cfg.primaries + x % cfg.primaries⟩, x % cfg.primaries) := by
  have hprimaries : 0 < cfg.primaries := Nat.pos_of_mul_pos_left (Nat.zero_lt_of_lt hupper)
  have hlower := (Nat.le_div_iff_mul_le hprimaries).mpr h.lower
  have hround : x / cfg.primaries / cfg.stepsPerPrimary = q :=
    Nat.div_eq_of_lt_le hlower ((Nat.div_lt_iff_lt_mul hprimaries).mpr hupper)
  rw [turnAt, hround, h.round]

/-- A turn of a group. -/
theorem step (h : Underway w cfg g q x c) (hc : Contention w cfg c) (hs : c.Sound routine)
    (hdoes : c.Does t (.step slot (.lock lock))) :
    Underway w cfg g q (x + 1) (c.act t (.step slot (.lock lock))) := by
  obtain ⟨hhead, hslot, hlt⟩ : c.live.order.head? = some slot ∧ c.primaries[slot]? = some t ∧
      c.taken t < w.criticalSections := by
    cases hc.conduct hs hdoes with
    | step _ hhead hslot hlt => exact ⟨hhead, hslot, hlt⟩
  have hgroup := h.group_lt hc hslot
  have hgone : ∀ u, c.desk.todo u = [] → u ≠ t := by
    rintro u hu rfl
    exact Nat.ne_of_lt hlt (taken_of_done hc (hc.lt_size hs hdoes.active.listed) hu).1
  obtain ⟨rfl, hupper, horder⟩ := h.head_order hc hs hhead hslot hlt
  obtain ⟨rfl, hbelow, -⟩ := h.eq_of_slot hslot
  exact {
    round := h.round
    round_lt := h.round_lt
    lower := Nat.le_succ_of_le h.lower
    upper := hupper
    group := .inl hgroup
    listed := h.listed
    roster := h.roster
    gone := fun u hu => todo_act hs hdoes (hgone u (h.gone u hu)) (h.gone u hu)
    seated := h.seated
    length_le := h.length_le
    filling := h.filling
    filled := h.filled
    order := horder
    retired := fun u hu => todo_act hs hdoes (hgone u (h.retired u hu)) (h.retired u hu)
    retired_seated := h.retired_seated
    taken := fun u => by
      rw [Course.taken_append rfl, h.taken, share_succ (Nat.zero_lt_of_lt hbelow)]
      congr 1
      exact if_congr ⟨fun hu => by rw [hu], fun hu => by cases u; cases hu; rfl⟩ rfl rfl
    turns := by
      rw [turnsUntil, inBlocks_succ, ← turnsUntil, ← h.turns, h.turnAt_eq hupper]
      rfl
    starts := h.starts }

/-- A unit of a group leaves its critical section. -/
theorem give (h : Underway w cfg g q x c) (hc : Contention w cfg c) (hs : c.Sound routine)
    (hdoes : c.Does t (.give lock)) : Underway w cfg g q x (c.act t (.give lock)) := by
  have hgone : ∀ u, c.desk.todo u = [] → u ≠ t := by
    rintro u hu rfl
    exact (taken_of_done hc (hc.lt_size hs hdoes.active.listed) hu).2 hdoes.owner_of_give
  exact {
    h with
    gone := fun u hu => todo_act hs hdoes (hgone u (h.gone u hu)) (h.gone u hu)
    retired := fun u hu => todo_act hs hdoes (hgone u (h.retired u hu)) (h.retired u hu) }

/-- A unit of a group retires. -/
theorem retire (h : Underway w cfg g q x c) (hc : Contention w cfg c) (hs : c.Sound routine)
    (hdoes : c.Does t (.retire slot)) : Underway w cfg g q x (c.act t (.retire slot)) := by
  have htodo : c.desk.todo t = [] := by
    cases hc.conduct hs hdoes with
    | retire _ _ htodo => exact htodo
  obtain rfl := (h.eq_of_slot hdoes.seat_of_retire).1
  exact {
    h with
    order := by
      refine (congrArg (List.filter _) h.order).trans ?_
      rw [List.filter_filter]
      refine List.filter_congr fun u _ => ?_
      by_cases hu : u = slot
      · simp [hu, Course.act]
      · simp [hu, Course.act, update_of_ne]
    retired := fun u hu => by
      by_cases hut : u = ⟨g * cfg.primaries + slot⟩
      · exact hut ▸ htodo
      · exact h.retired u ((update_of_ne hut _ _).symm.trans hu)
    retired_seated := fun u hu => by
      by_cases hut : u = ⟨g * cfg.primaries + slot⟩
      · subst hut
        exact List.mem_of_getElem? (l := c.primaries) hdoes.seat_of_retire
      · exact h.retired_seated u ((update_of_ne hut _ _).symm.trans hu) }

/-- A group stays under way when another unit is listed. -/
lemma list (h : Underway w cfg g q x c) : Underway w cfg g q x c.list := by
  have hroster : c.list.roster = (List.range' (g * cfg.primaries)
      (c.listed + 1 - g * cfg.primaries)).map ThreadId.mk := by
    rw [Nat.succ_sub h.listed, List.range'_1_concat, List.map_append, ← h.roster,
      Nat.add_sub_cancel' h.listed]
    rfl
  have hlen : c.primaries.length ≤ c.roster.length := by
    rw [h.seated]
    exact List.length_take_le' _ _
  exact {
    h with
    listed := Nat.le_succ_of_le h.listed
    roster := hroster
    seated := h.seated.trans (List.take_append_of_le_length hlen).symm }

/-- The next unit of the group takes the next slot. -/
lemma look (h : Underway w cfg g q x c) {index : Nat} {plan : RoundConfig}
    (hfilling : c.filling = some (index, plan)) (hlen : c.primaries.length < plan.primaries)
    (ht : c.roster[index]? = some t) :
    Underway w cfg g q x (c.look t (fun _ => true) index plan) := by
  obtain ⟨rfl, rfl⟩ := h.filling index plan hfilling
  have hlength : (c.primaries ++ [t]).length = c.primaries.length + 1 := List.length_append
  exact {
    h with
    seated := by
      show c.primaries ++ [t] = c.roster.take (c.primaries ++ [t]).length
      rw [hlength, List.take_add_one, ht, ← h.seated]
      rfl
    length_le := by
      show (c.primaries ++ [t]).length ≤ cfg.primaries
      exact hlength ▸ hlen
    filling := fun index plan hf => by
      cases hf
      exact ⟨hlength.symm, rfl⟩
    filled := nofun
    retired_seated := fun u hu => List.mem_append_left _ (h.retired_seated u hu)
    starts := by
      refine h.starts.trans ?_
      rw [hfilling]
      rfl }

/-- A group stays under way when its round is full. -/
lemma fill (h : Underway w cfg g q x c) {index : Nat} {plan : RoundConfig}
    (hfilling : c.filling = some (index, plan)) (hlen : plan.primaries ≤ c.primaries.length) :
    Underway w cfg g q x (c.fill plan) := by
  obtain ⟨rfl, rfl⟩ := h.filling index plan hfilling
  have hfull : c.primaries.length = cfg.primaries := Nat.le_antisymm h.length_le hlen
  exact {
    h with
    filling := nofun
    filled := fun _ => hfull
    starts := by
      show c.starts ++ [_] = w.startsUntil cfg g (q + 1)
      rw [startsUntil, inBlocks_succ, ← startsUntil, startAt, ← h.primaries_of_full hfull,
        ← h.round, h.starts, hfilling]
      rfl }

/-! ### A round ends -/

section Closing

variable (hstuck : ∀ t ∈ c.primaries, ∀ e, ¬ c.Does t e)

include hstuck

/-- When the units of a group can do nothing any more, the lock is free. -/
lemma free_of_stuck (h : Underway w cfg g q x c) (hc : Contention w cfg c) (hs : c.Sound routine)
    (hfull : c.primaries.length = cfg.primaries) : c.desk.owner lock = none := by
  rw [Option.eq_none_iff_forall_ne_some]
  intro t howner
  have hnumber : t.raw < w.size cfg := Nat.lt_of_lt_of_le (hs.owned t lock howner) hc.listed_le
  cases hc.standing t hnumber with
  | between _ _ hother | waiting _ _ _ hother => exact hother howner
  | holding hpos hle htodo _ hlink =>
    -- The owner took a turn, and it is not one of the units that are gone.
    have hprimary : t ∈ c.primaries := by
      rw [h.taken, share] at hpos
      by_cases hbefore : t.raw < g * cfg.primaries
      · rw [h.gone t hbefore] at htodo
        cases htodo
      rw [if_neg hbefore] at hpos
      by_cases hwithin : t.raw < g * cfg.primaries + cfg.primaries
      · exact h.mem_primaries hfull (Nat.le_of_not_lt hbefore) hwithin
      · rw [if_neg hwithin] at hpos
        exact absurd hpos (Nat.lt_irrefl 0)
    have hactive : c.Active t := by
      refine ⟨hs.listed t hprimary, Bool.eq_false_iff.mpr fun hretired => ?_, hlink⟩
      rw [h.retired t hretired] at htodo
      cases htodo
    exact hstuck t hprimary _ (.give lock hactive (by rw [Desk.next?, htodo]; rfl) howner)

/-- When the units of a group can do nothing any more, nobody is in the queue of the lock. -/
lemma unlinked_of_stuck (h : Underway w cfg g q x c) (hc : Contention w cfg c)
    (hs : c.Sound routine) (hfull : c.primaries.length = cfg.primaries) :
    c.desk.queue lock = [] ∧ ∀ t, c.desk.link t = none := by
  have hqueue := hs.desk.free lock (h.free_of_stuck hstuck hc hs hfull)
  refine ⟨hqueue, fun t => Option.eq_none_iff_forall_ne_some.mpr fun l hlink => ?_⟩
  have hprimary := hs.seated t l hlink
  cases hc.standing t (hc.lt_size hs (hs.listed t hprimary)) with
  | between _ _ _ hnone | holding _ _ _ _ hnone => exact nomatch hnone.symm.trans hlink
  | waiting _ _ _ _ hlock =>
    have hmem := (hs.desk.linked t lock).mpr hlock
    rw [hqueue] at hmem
    cases hmem

/-- A unit that can do nothing any more retired, or it has critical sections left. -/
lemma retired_or_lt_of_stuck (h : Underway w cfg g q x c) (hc : Contention w cfg c)
    (hs : c.Sound routine) (hfull : c.primaries.length = cfg.primaries) (ht : t ∈ c.primaries) :
    c.retired t = true ∨ c.taken t < w.criticalSections ∧
      c.desk.next? t = some (.step (.lock lock)) := by
  have hlisted := hs.listed t ht
  have hlink := (h.unlinked_of_stuck hstuck hc hs hfull).2 t
  rcases hc.next?_cases (hc.lt_size hs hlisted) hlink with ⟨howner, -⟩ | ⟨-, -, hlt | ⟨-, hnil⟩⟩
  · exact nomatch (h.free_of_stuck hstuck hc hs hfull).symm.trans howner
  · exact .inr hlt
  · left
    by_contra hretired
    cases hslot : c.primaries.idxOf? t with
    | none => exact List.idxOf?_eq_none_iff.mp hslot ht
    | some slot =>
      exact hstuck t ht _ (.retire slot ⟨hlisted, Bool.eq_false_iff.mpr hretired, hlink⟩
        (by rw [Desk.next?, hnil]; rfl) hslot)

/-- When the units of a group can do nothing any more, no step of the round is left. -/
lemma order_of_stuck (h : Underway w cfg g q x c) (hc : Contention w cfg c) (hs : c.Sound routine)
    (hfull : c.primaries.length = cfg.primaries) : c.live.order = [] := by
  by_contra hleft
  obtain ⟨slot, hhead⟩ : ∃ slot, c.live.order.head? = some slot :=
    Option.ne_none_iff_exists'.mp (mt List.head?_eq_none_iff.mp hleft)
  have hmem := List.mem_of_mem_head? hhead
  rw [h.order, List.mem_filter] at hmem
  obtain ⟨hmem, hretired⟩ := hmem
  have hslot : c.primaries[slot]? = some ⟨g * cfg.primaries + slot⟩ := by
    rw [h.primaries_of_full hfull, List.getElem?_map,
      List.getElem?_range (RoundConfig.mem_passes (List.mem_of_mem_drop hmem))]
    rfl
  have hprimary := List.mem_of_getElem? hslot
  have hfree := h.free_of_stuck hstuck hc hs hfull
  rcases h.retired_or_lt_of_stuck hstuck hc hs hfull hprimary with hgone | ⟨-, hnext⟩
  · simp [hgone] at hretired
  · refine hstuck _ hprimary _ (.step slot _ ⟨hs.listed _ hprimary, by simpa using hretired,
      (h.unlinked_of_stuck hstuck hc hs hfull).2 _⟩ hnext (fun l hl => ?_) hhead hslot)
    cases hl
    rw [hfree]
    exact nofun

omit hstuck in
/-- Nobody retires before the last round of its group, in which its turns are not all taken. -/
lemma not_retired_of_early (h : Underway w cfg g q x c) (hc : Contention w cfg c)
    (hs : c.Sound routine) (hprimaries : 0 < cfg.primaries) (hsteps : 0 < cfg.stepsPerPrimary)
    (hq : q + 1 < w.roundsPerGroup cfg) (t : ThreadId) : c.retired t = false := by
  refine Bool.eq_false_iff.mpr fun hretired => ?_
  have hnumber := hc.lt_size hs (hs.retired t hretired)
  have hall := (taken_of_done hc hnumber (h.retired t hretired)).1
  obtain ⟨slot, hslot⟩ := List.mem_iff_getElem?.mp (h.retired_seated t hretired)
  obtain ⟨rfl, hbelow, -⟩ := h.eq_of_slot hslot
  rw [h.taken, share_of_slot hbelow] at hall
  exact Nat.not_le.mpr (mul_lt_of_succ_lt hsteps hq)
    (hall ▸ stepsInTurn_le hprimaries h.upper)

/-- When the units of a group can do nothing any more and none of them retired, the turns of the
round are taken. -/
lemma turns_of_stuck (h : Underway w cfg g q x c) (hc : Contention w cfg c) (hs : c.Sound routine)
    (hfull : c.primaries.length = cfg.primaries) (hunretired : ∀ t, c.retired t = false) :
    x = (q + 1) * cfg.stepsPerPrimary * cfg.primaries := by
  have hdone := h.order_of_stuck hstuck hc hs hfull
  rw [h.order, List.filter_eq_self.mpr fun slot _ => by simp [hunretired], List.drop_eq_nil_iff,
    RoundConfig.length_passes] at hdone
  have hsplit : (q + 1) * cfg.stepsPerPrimary * cfg.primaries =
      q * cfg.stepsPerPrimary * cfg.primaries + cfg.stepsPerPrimary * cfg.primaries := by
    rw [Nat.succ_mul, Nat.add_mul]
  have hlower := h.lower
  have hupper := h.upper
  omega

/-- Before the last round of a group all steps of a round are taken, and nobody retires. -/
lemma next_round (h : Underway w cfg g q x c) (hc : Contention w cfg c) (hs : c.Sound routine)
    (hfilling : c.filling = none) (hprimaries : 0 < cfg.primaries)
    (hsteps : 0 < cfg.stepsPerPrimary) (hq : q + 1 < w.roundsPerGroup cfg) :
    Underway w cfg g (q + 1) x c.nextRound := by
  have hfull := h.filled hfilling
  have hunretired := h.not_retired_of_early hc hs hprimaries hsteps hq
  have hx := h.turns_of_stuck hstuck hc hs hfull hunretired
  have hgroup : g < w.groups cfg.primaries :=
    h.group_lt hc (List.getElem?_eq_getElem (hfull.symm ▸ hprimaries))
  exact {
    round := by
      show c.round + 1 = _
      rw [h.round]
      rfl
    round_lt := hq
    lower := Nat.le_of_eq hx.symm
    upper := Nat.le_trans h.upper
      (Nat.mul_le_mul_right _ (Nat.mul_le_mul_right _ (Nat.le_succ _)))
    group := .inl hgroup
    listed := h.listed
    roster := by
      refine Eq.trans ?_ h.roster
      exact List.filter_eq_self.mpr fun t _ => by simp [hunretired t]
    gone := h.gone
    seated := rfl
    length_le := Nat.zero_le _
    filling := fun index plan hf => by
      cases hf
      exact ⟨rfl, hc.staged⟩
    filled := nofun
    order := hc.order_nextRound (Nat.sub_eq_zero_of_le (Nat.le_of_eq hx))
    retired := nofun
    retired_seated := nofun
    taken := h.taken
    turns := h.turns
    starts := by
      refine h.starts.trans ?_
      rw [hfilling]
      rfl }

/-- In its last round the whole group retires. -/
lemma retired_of_stuck (h : Underway w cfg g q x c) (hc : Contention w cfg c) (hs : c.Sound routine)
    (hfull : c.primaries.length = cfg.primaries) (hprimaries : 0 < cfg.primaries)
    (hsteps : 0 < cfg.stepsPerPrimary) (hq : q + 1 = w.roundsPerGroup cfg) (ht : t ∈ c.primaries) :
    c.retired t = true := by
  rcases h.retired_or_lt_of_stuck hstuck hc hs hfull ht with hretired | ⟨hlt, -⟩
  · exact hretired
  by_contra hretired
  obtain ⟨slot, hslot⟩ := List.mem_iff_getElem?.mp ht
  obtain ⟨rfl, hbelow, -⟩ := h.eq_of_slot hslot
  have hdone := h.order_of_stuck hstuck hc hs hfull
  obtain ⟨y, rfl⟩ := Nat.exists_eq_add_of_le h.lower
  have hsections := w.le_roundsPerGroup_mul cfg hsteps
  rw [← hq, Nat.succ_mul] at hsections
  rw [h.taken, share_of_slot hbelow, stepsInTurn_mul_add hprimaries] at hlt
  have hmem := RoundConfig.mem_drop_passes hbelow
    (show stepsInTurn cfg.primaries y slot < cfg.stepsPerPrimary by omega)
  rw [h.order, Nat.add_sub_cancel_left, List.filter_eq_nil_iff] at hdone
  exact hdone slot hmem (by simpa using hretired)

/-- After the last round of a group all its turns were taken. -/
lemma turns_of_last (h : Underway w cfg g q x c) (hc : Contention w cfg c) (hs : c.Sound routine)
    (hfull : c.primaries.length = cfg.primaries) (hprimaries : 0 < cfg.primaries)
    (hsteps : 0 < cfg.stepsPerPrimary) (hq : q + 1 = w.roundsPerGroup cfg) :
    x = w.criticalSections * cfg.primaries := by
  refine eq_mul_of_stepsInTurn hprimaries fun slot hslot => ?_
  have hseat := h.mem_primaries (t := ⟨g * cfg.primaries + slot⟩) hfull (Nat.le_add_right _ _)
    (Nat.add_lt_add_left hslot _)
  have hretired := h.retired_of_stuck hstuck hc hs hfull hprimaries hsteps hq hseat
  rw [← share_of_slot hslot, ← h.taken ⟨g * cfg.primaries + slot⟩]
  exact (taken_of_done hc (hc.lt_size hs (hs.listed _ hseat)) (h.retired _ hretired)).1

omit hstuck in
/-- The units of a group stand before those of the next group. -/
lemma roster_eq_append (h : Underway w cfg g q x c) (hfull : c.primaries.length = cfg.primaries)
    (hlisted : (g + 1) * cfg.primaries ≤ c.listed) :
    c.roster = c.primaries ++ (List.range' ((g + 1) * cfg.primaries)
      (c.listed - (g + 1) * cfg.primaries)).map ThreadId.mk := by
  have hsucc : (g + 1) * cfg.primaries = g * cfg.primaries + cfg.primaries := Nat.succ_mul ..
  have hlength : c.listed - g * cfg.primaries =
      cfg.primaries + (c.listed - (g + 1) * cfg.primaries) := by omega
  rw [h.roster, h.primaries_of_full hfull, hlength, ← List.range'_append_1, List.map_append,
    hsucc, List.range'_eq_map_range, List.map_map]
  rfl

omit hstuck in
/-- If the whole group retired, the next round begins with the units of the next group. -/
lemma roster_nextRound (h : Underway w cfg g q x c) (hfull : c.primaries.length = cfg.primaries)
    (hlisted : (g + 1) * cfg.primaries ≤ c.listed)
    (hretired : ∀ t ∈ c.primaries, c.retired t = true) :
    c.nextRound.roster = (List.range' ((g + 1) * cfg.primaries)
      (c.listed - (g + 1) * cfg.primaries)).map ThreadId.mk := by
  show c.roster.filter _ = _
  rw [h.roster_eq_append hfull hlisted, List.filter_append,
    List.filter_eq_nil_iff.mpr fun t ht => by simp [hretired t ht], List.nil_append]
  refine List.filter_eq_self.mpr fun t ht => ?_
  obtain ⟨i, hi, rfl⟩ := List.mem_map.mp ht
  have hlater := (List.mem_range'_1.mp hi).1
  -- Nobody retired but units of the group.
  by_contra hgone
  obtain ⟨slot, hslot⟩ := List.mem_iff_getElem?.mp (h.retired_seated ⟨i⟩ (by simpa using hgone))
  obtain ⟨heq, hbelow, -⟩ := h.eq_of_slot hslot
  cases heq
  rw [Nat.succ_mul] at hlater
  omega

/-- After the last round of a group the next group comes. -/
lemma next_group (h : Underway w cfg g q x c) (hc : Contention w cfg c) (hs : c.Sound routine)
    (hfilling : c.filling = none) (hprimaries : 0 < cfg.primaries)
    (hsteps : 0 < cfg.stepsPerPrimary) (hq : q + 1 = w.roundsPerGroup cfg) :
    Underway w cfg (g + 1) 0 0 c.nextRound := by
  have hfull := h.filled hfilling
  have hretired : ∀ t ∈ c.primaries, c.retired t = true := fun t ht =>
    h.retired_of_stuck hstuck hc hs hfull hprimaries hsteps hq ht
  have hx := h.turns_of_last hstuck hc hs hfull hprimaries hsteps hq
  have hsucc : (g + 1) * cfg.primaries = g * cfg.primaries + cfg.primaries := Nat.succ_mul ..
  have hlast := (h.eq_of_slot (List.getElem?_eq_getElem (l := c.primaries)
    (i := cfg.primaries - 1) (by omega))).2.2
  have hlisted : (g + 1) * cfg.primaries ≤ c.listed := by omega
  exact {
    round := by
      show c.round + 1 = _
      rw [h.round, Nat.succ_mul, ← hq]
      omega
    round_lt := w.roundsPerGroup_pos cfg
    lower := by simp
    upper := Nat.zero_le _
    group := .inr ⟨rfl, rfl⟩
    listed := hlisted
    roster := h.roster_nextRound hfull hlisted hretired
    gone := fun t ht => by
      by_cases hbefore : t.raw < g * cfg.primaries
      · exact h.gone t hbefore
      · have hseat := h.mem_primaries hfull (Nat.le_of_not_lt hbefore) (hsucc ▸ ht)
        exact h.retired t (hretired t hseat)
    seated := rfl
    length_le := Nat.zero_le _
    filling := fun index plan hf => by
      cases hf
      exact ⟨rfl, hc.staged⟩
    filled := nofun
    order := hc.order_nextRound (Nat.sub_eq_zero_of_le (Nat.zero_le _))
    retired := nofun
    retired_seated := nofun
    taken := fun t => by
      refine (h.taken t).trans ?_
      rw [hx, share, share, stepsInTurn_mul hprimaries, stepsInTurn_zero, hsucc]
      grind
    turns := h.turns.trans ((congrArg (w.turnsUntil cfg g) hx).trans inBlocks_full)
    starts := by
      refine h.starts.trans ?_
      rw [hfilling]
      show w.startsUntil cfg g (q + 1) = w.startsUntil cfg (g + 1) 0
      rw [hq, startsUntil, inBlocks_full] }

end Closing

end Underway

/-! ### The whole course -/

/-- The first round did not begin, and nothing happened but that units were listed. -/
structure Unbegun (c : Course) : Prop where
  round : c.round = 0
  roster : c.roster = (List.range' 0 c.listed).map ThreadId.mk
  primaries : c.primaries = []
  filling : c.filling = none
  unretired : ∀ t, c.retired t = false
  turns : c.turns = []
  starts : c.starts = []

/-- The course of the workload before its first round and from then on. -/
inductive OnPlan (w : Workload) (cfg : Config) (c : Course) : Prop
  /-- The first round did not begin. -/
  | unbegun (h : Unbegun c)
  /-- Some turns of a group were taken. -/
  | underway (g q x : Nat) (h : Underway w cfg g q x c)

variable {w : Workload} {cfg : Config} {c c' : Course} {t : ThreadId} {e : Deed} {a : Label}
  {routine : Nat → Routine}

/-- Before the first round nobody took a turn. -/
lemma Unbegun.taken (h : Unbegun c) (t : ThreadId) : c.taken t = 0 := by
  rw [Course.taken, h.turns, List.countP_nil]

/-- Without a round nobody can do anything. -/
lemma Unbegun.not_does (h : Unbegun c) (hc : Contention w cfg c) (hs : c.Sound routine) :
    ¬ c.Does t e := by
  intro hdoes
  cases hc.conduct hs hdoes with
  | give howner =>
    cases hc.standing t (hc.lt_size hs hdoes.active.listed) with
    | between _ _ hother | waiting _ _ _ hother => exact hother howner
    | holding hpos => exact Nat.ne_of_gt hpos (h.taken t)
  | step slot hhead hslot => simp [h.primaries] at hslot
  | retire slot hslot => simp [h.primaries] at hslot

/-- Whoever is in a queue is a primary, so nobody is before the first round. -/
lemma Unbegun.unlinked (h : Unbegun c) (hs : c.Sound routine) (t : ThreadId) :
    c.desk.link t = none := by
  refine Option.eq_none_iff_forall_ne_some.mpr fun l hlink => ?_
  have hmem := hs.seated t l hlink
  rw [h.primaries] at hmem
  cases hmem

/-- No round begins when a unit is listed. -/
lemma Unbegun.list (h : Unbegun c) : Unbegun c.list where
  round := h.round
  roster := by
    show c.roster ++ [_] = (List.range' 0 (c.listed + 1)).map ThreadId.mk
    rw [List.range'_1_concat, List.map_append, h.roster, Nat.zero_add]
    rfl
  primaries := h.primaries
  filling := h.filling
  unretired := h.unretired
  turns := h.turns
  starts := h.starts

/-- With the first round the first group is under way. -/
lemma Unbegun.begin (h : Unbegun c) (hc : Contention w cfg c) :
    Underway w cfg 0 0 0 c.nextRound where
  round := by
    show c.round + 1 = _
    rw [h.round]
    omega
  round_lt := w.roundsPerGroup_pos cfg
  lower := by simp
  upper := Nat.zero_le _
  group := .inr ⟨rfl, rfl⟩
  listed := by simp
  roster := by
    show c.roster.filter _ = _
    rw [List.filter_eq_self.mpr fun t _ => by simp [h.unretired t], h.roster, Nat.zero_mul]
    rfl
  gone t ht := by simp at ht
  seated := rfl
  length_le := Nat.zero_le _
  filling index plan hf := by
    cases hf
    exact ⟨rfl, hc.staged⟩
  filled := nofun
  order := hc.order_nextRound (Nat.sub_eq_zero_of_le (Nat.zero_le _))
  retired := nofun
  retired_seated := nofun
  taken t := by
    refine (h.taken t).trans ?_
    simp [share, stepsInTurn_zero]
  turns := h.turns
  starts := h.starts

/-- When a round begins, nobody is in the queue of the lock. -/
theorem OnPlan.unlinked_of_next (h : OnPlan w cfg c) (hc : Contention w cfg c)
    (hs : c.Sound routine) (hfilling : c.filling = none)
    (hstuck : ∀ t ∈ c.primaries, ∀ e, ¬ c.Does t e) :
    c.desk.queue lock = [] ∧ ∀ t, c.desk.link t = none := by
  cases h with
  | unbegun h =>
    refine ⟨List.eq_nil_iff_forall_not_mem.mpr fun t ht => ?_, h.unlinked hs⟩
    exact nomatch ((hs.desk.linked t lock).mp ht).symm.trans (h.unlinked hs t)
  | underway g q x h => exact h.unlinked_of_stuck hstuck hc hs (h.filled hfilling)

/-- Every course of the workload stays on the plan, as long as only its units are listed. -/
theorem OnPlan.fires (h : OnPlan w cfg c) (hc : Contention w cfg c) (hs : c.Sound routine)
    (hprimaries : 0 < cfg.primaries) (hsteps : 0 < cfg.stepsPerPrimary)
    (hfires : Course.Fires (fun _ => true) c a c') (hlisted : c'.listed ≤ w.size cfg) :
    Contention w cfg c' ∧ OnPlan w cfg c' := by
  cases hfires with
  | list =>
    refine ⟨hc.list hlisted, ?_⟩
    cases h with
    | unbegun h => exact .unbegun h.list
    | underway g q x h => exact .underway g q x h.list
  | look index plan t hfilling hlen ht =>
    refine ⟨hc.look t _ index plan, ?_⟩
    cases h with
    | unbegun h => exact nomatch h.filling.symm.trans hfilling
    | underway g q x h => exact .underway g q x (h.look hfilling hlen ht)
  | fill index plan hfilling hlen =>
    refine ⟨hc.fill plan, ?_⟩
    cases h with
    | unbegun h => exact nomatch h.filling.symm.trans hfilling
    | underway g q x h => exact .underway g q x (h.fill hfilling hlen)
  | next hfilling hstuck =>
    obtain ⟨hqueue, hlinks⟩ := h.unlinked_of_next hc hs hfilling hstuck
    refine ⟨hc.nextRound hlinks hqueue, ?_⟩
    cases h with
    | unbegun h => exact .underway 0 0 0 (h.begin hc)
    | underway g q x h =>
      rcases Nat.lt_or_eq_of_le (Nat.succ_le_of_lt h.round_lt) with hq | hq
      · exact .underway _ _ _ (h.next_round hstuck hc hs hfilling hprimaries hsteps hq)
      · exact .underway _ _ _ (h.next_group hstuck hc hs hfilling hprimaries hsteps hq)
  | act t e hdoes =>
    refine ⟨hc.act hs hdoes, ?_⟩
    cases h with
    | unbegun h => exact absurd hdoes (h.not_does hc hs)
    | underway g q x h =>
      cases hc.conduct hs hdoes with
      | give howner => exact .underway g q x (h.give hc hs hdoes)
      | step slot => exact .underway g q (x + 1) (h.step hc hs hdoes)
      | retire slot => exact .underway g q x (h.retire hc hs hdoes)

/-- A course of the workload has recorded a beginning of what the plan says. -/
theorem OnPlan.prefixes (h : OnPlan w cfg c) (hc : Contention w cfg c)
    (hprimaries : 0 < cfg.primaries) : c.turns <+: w.turns cfg ∧
      c.starts <+: w.starts cfg ∧ c.desk.grants lock <+: w.grants cfg := by
  have hgrants : c.desk.grants lock <+: c.turns.map (·.2.1) := hc.fifo ▸ List.prefix_append ..
  rw [w.grants_eq cfg, w.turns_eq cfg hprimaries, w.starts_eq cfg]
  cases h with
  | unbegun h =>
    rw [h.turns] at hgrants
    exact ⟨h.turns ▸ List.nil_prefix, h.starts ▸ List.nil_prefix,
      hgrants.trans (List.nil_prefix.map _)⟩
  | underway g q x h =>
    have hturns : w.turnsUntil cfg g x <+: w.turnsUntil cfg (w.groups cfg.primaries) 0 := by
      rcases h.group with hgroup | ⟨-, rfl⟩
      · exact inBlocks_initial (h.le_sections hc hprimaries) hgroup
      · exact inBlocks_zero_initial (h.group_le hc hprimaries)
    refine ⟨h.turns ▸ hturns, ?_, hgrants.trans ((h.turns ▸ hturns).map _)⟩
    rw [h.starts]
    cases hfilling : c.filling with
    | none =>
      have hfull := h.filled hfilling
      exact inBlocks_initial (Nat.succ_le_of_lt h.round_lt)
        (h.group_lt hc (List.getElem?_eq_getElem (hfull.symm ▸ hprimaries)))
    | some f =>
      rcases h.group with hgroup | ⟨rfl, -⟩
      · exact inBlocks_initial (Nat.le_of_lt h.round_lt) hgroup
      · exact inBlocks_zero_initial (h.group_le hc hprimaries)

end Workload

end RoundScheduler
