import RoundScheduler.Proofs.Determinism.Course
import RoundScheduler.Proofs.Workload.Plan

/-!
# Units that contend for one lock

A unit of the workload is between two critical sections, in the queue of the lock, or in a critical
section, and the number of its turns says which one. Turns are granted the lock in the order in
which they are taken, so the owners so far followed by the queue are the takers of the turns. Both
hold in every course of the workload as long as no round closes while somebody is in the queue.
-/

namespace RoundScheduler

open Function

/-- How many turns a thread took. -/
def Course.taken (c : Course) (t : ThreadId) : Nat := c.turns.countP fun turn => turn.2.1 = t

/-- A recorded turn counts for the thread that took it. -/
lemma Course.taken_append {c c' : Course} {t u : ThreadId} {round : Nat} {slot : Slot}
    (h : c'.turns = c.turns ++ [(round, t, slot)]) :
    c'.taken u = c.taken u + if u = t then 1 else 0 := by
  rw [taken, taken, h, List.countP_append, List.countP_singleton]
  by_cases hu : u = t
  · simp [hu]
  · simp [hu, Ne.symm hu]

/-- Only the thread that acts may take a turn. -/
lemma Course.taken_act_of_ne {c : Course} {t u : ThreadId} {e : Deed} (hut : u ≠ t) :
    (c.act t e).taken u = c.taken u := by
  cases e with
  | step slot p => rw [taken_append rfl, if_neg hut, Nat.add_zero]
  | pass v | give l | retire slot => rfl

namespace Workload

/-! ### Where a unit stands -/

/-- Where a unit with `total` critical sections stands that took `n` turns. -/
inductive Standing (total n : Nat) (d : Desk) (t : ThreadId) : Prop
  /-- It is between its critical sections, or done with them. -/
  | between (hle : n ≤ total) (htodo : d.todo t = sections (total - n))
    (howner : d.owner lock ≠ some t) (hlink : d.link t = none)
  /-- It waits to enter the section that it took its last turn for. -/
  | waiting (hpos : 0 < n) (hle : n ≤ total) (htodo : d.todo t = sections (total - n + 1))
    (howner : d.owner lock ≠ some t) (hlink : d.link t = some lock)
  /-- It is in the section that it took its last turn for. -/
  | holding (hpos : 0 < n) (hle : n ≤ total)
    (htodo : d.todo t = ⟨.unlock lock, true⟩ :: sections (total - n))
    (howner : d.owner lock = some t) (hlink : d.link t = none)

namespace Standing

variable {total n : Nat} {d d' : Desk} {t : ThreadId} {l : LockId}

/-- A unit takes at most one turn for each of its critical sections. -/
lemma le (h : Standing total n d t) : n ≤ total := by
  cases h with
  | between hle | waiting _ hle | holding _ hle => exact hle

/-- A unit stands where it stood while it is spared. -/
lemma spared (h : Standing total n d t) (hd : Desk.Spared d d' t) : Standing total n d' t := by
  cases h with
  | between hle htodo howner hlink =>
    exact .between hle (hd.todo.trans htodo) (mt (hd.owner _).mp howner) (hd.link.trans hlink)
  | waiting hpos hle htodo howner hlink =>
    exact .waiting hpos hle (hd.todo.trans htodo) (mt (hd.owner _).mp howner) (hd.link.trans hlink)
  | holding hpos hle htodo howner hlink =>
    exact .holding hpos hle (hd.todo.trans htodo) ((hd.owner _).mpr howner) (hd.link.trans hlink)

/-- A unit that is handed the lock enters the section that it waited for. -/
lemma handed (h : Standing total n d t) (hd : Desk.Handed d d' t l) : Standing total n d' t := by
  cases h with
  | between hle htodo howner hlink => exact nomatch hlink.symm.trans hd.link_before
  | waiting hpos hle htodo howner hlink =>
    obtain rfl : lock = l := Option.some_inj.mp (hlink.symm.trans hd.link_before)
    refine .holding hpos hle ?_ ((hd.owner _).mpr (.inl rfl)) hd.link
    rw [hd.todo, htodo, sections_succ]
    rfl
  | holding hpos hle htodo howner hlink => exact nomatch hlink.symm.trans hd.link_before

/-- A unit without a lock and with critical sections left takes a turn for the next one. -/
lemma take (hlt : n < total) (htodo : d.todo t = sections (total - n))
    (howner : d.owner lock ≠ some t) (hlink : d.link t = none) :
    Standing total (n + 1) (d.take t lock) t := by
  have hsections : sections (total - n) =
      ⟨.step (.lock lock), true⟩ :: ⟨.unlock lock, true⟩ :: sections (total - (n + 1)) := by
    rw [← sections_succ, Nat.sub_add_eq, Nat.sub_add_cancel (Nat.sub_pos_of_lt hlt)]
  by_cases hfree : d.owner lock = none
  · rw [Desk.take_of_free hfree]
    refine .holding n.succ_pos hlt ?_ (by simp [Desk.acquire]) hlink
    simp [Desk.acquire, Desk.pass, htodo, hsections, Routine.after]
  · rw [Desk.take_of_owned hfree]
    refine .waiting n.succ_pos hlt ?_ howner (update_self ..)
    rw [sections_succ, ← hsections, ← htodo]
    rfl

/-- A unit leaves its critical section. -/
lemma give (h : Standing total n d t) (hd : d.Sound) (howner : d.owner lock = some t) :
    Standing total n (d.give t lock) t := by
  cases h with
  | between hle htodo hother => exact absurd howner hother
  | waiting hpos hle htodo hother => exact absurd howner hother
  | holding hpos hle htodo _ hlink =>
    have hafter : (d.todo t).after .done = sections (total - n) := by rw [htodo]; rfl
    cases hqueue : d.queue lock with
    | nil =>
      rw [Desk.give_of_nil hqueue]
      exact .between hle (by simp [Desk.release, Desk.pass, hafter]) (by simp [Desk.release]) hlink
    | cons next rest =>
      have hne := hd.ne_of_head hqueue hlink
      rw [Desk.give_of_cons hqueue]
      refine .between hle ?_ ?_ ?_
      · simp [Desk.handOver, Desk.acquire, Desk.pass, hafter, hne.symm]
      · simpa [Desk.handOver, Desk.acquire] using hne
      · simpa [Desk.handOver, hne.symm] using hlink

end Standing

/-! ### What the units do -/

/-- The units of the workload contend for the lock, and nothing else happens. -/
structure Contention (w : Workload) (cfg : Config) (c : Course) : Prop where
  live : c.live.primaries = cfg.primaries
  staged : c.staged = ⟨cfg.primaries, RoundConfig.passes cfg.primaries cfg.stepsPerPrimary⟩
  listed_le : c.listed ≤ w.size cfg
  standing : ∀ t : ThreadId, t.raw < w.size cfg →
    Standing w.criticalSections (c.taken t) c.desk t
  /-- The turns are granted the lock in the order in which they are taken. -/
  fifo : c.desk.grants lock ++ c.desk.queue lock = c.turns.map (·.2.1)

/-- What a unit of the workload can do. -/
inductive Conduct (w : Workload) (c : Course) (t : ThreadId) : Deed → Prop
  /-- It leaves its critical section. -/
  | give (howner : c.desk.owner lock = some t) : Conduct w c t (.give lock)
  /-- It takes a turn to enter its next one. -/
  | step (slot : Slot) (hhead : c.live.order.head? = some slot)
    (hslot : c.primaries[slot]? = some t) (hlt : c.taken t < w.criticalSections)
    (htodo : c.desk.todo t = sections (w.criticalSections - c.taken t))
    (howner : c.desk.owner lock ≠ some t) (hlink : c.desk.link t = none) :
    Conduct w c t (.step slot (.lock lock))
  /-- It retires, with no critical sections left. -/
  | retire (slot : Slot) (hslot : c.primaries.idxOf? t = some slot) (htodo : c.desk.todo t = []) :
    Conduct w c t (.retire slot)

namespace Contention

variable {w : Workload} {cfg : Config} {c : Course} {t u : ThreadId} {e : Deed}
  {routine : Nat → Routine}

/-- Whoever is listed is a thread of a unit. -/
lemma lt_size (h : Contention w cfg c) (hs : c.Sound routine) (ht : t ∈ c.roster) :
    t.raw < w.size cfg :=
  Nat.lt_of_lt_of_le (hs.numbered t ht) h.listed_le

/-- A unit that is not in the queue follows its script. -/
lemma next?_cases (h : Contention w cfg c) (ht : t.raw < w.size cfg)
    (hlink : c.desk.link t = none) :
    (c.desk.owner lock = some t ∧ c.desk.next? t = some (.unlock lock)) ∨
      c.desk.owner lock ≠ some t ∧
        c.desk.todo t = sections (w.criticalSections - c.taken t) ∧
        ((c.taken t < w.criticalSections ∧ c.desk.next? t = some (.step (.lock lock))) ∨
          c.taken t = w.criticalSections ∧ c.desk.todo t = []) := by
  cases h.standing t ht with
  | between hle htodo howner _ =>
    refine .inr ⟨howner, htodo, ?_⟩
    rcases Nat.lt_or_eq_of_le hle with hlt | heq
    · refine .inl ⟨hlt, ?_⟩
      rw [Desk.next?, htodo, ← Nat.sub_add_cancel (Nat.sub_pos_of_lt hlt), sections_succ]
      rfl
    · exact .inr ⟨heq, by rw [htodo, heq, Nat.sub_self]; rfl⟩
  | waiting _ _ _ _ hlock => cases hlink.symm.trans hlock
  | holding hpos hle htodo howner _ => exact .inl ⟨howner, by rw [Desk.next?, htodo]; rfl⟩

/-- Where a unit stands leaves three things that it can do: ask for the lock, give it up, and
retire. -/
theorem conduct (h : Contention w cfg c) (hs : c.Sound routine) (hdoes : c.Does t e) :
    Conduct w c t e := by
  have hnext := h.next?_cases (h.lt_size hs hdoes.active.listed) hdoes.active.unlinked
  cases hdoes with
  | refused l hactive hcall howner =>
    rcases hnext with ⟨howner', hnext⟩ | ⟨-, -, ⟨-, hnext⟩ | ⟨-, hnil⟩⟩
    · rw [hcall] at hnext
      cases hnext
      exact absurd howner' howner
    · rw [hcall] at hnext
      cases hnext
    · simp [Desk.next?, hnil] at hcall
  | give l hactive hcall howner =>
    rcases hnext with ⟨howner', hnext⟩ | ⟨-, -, ⟨-, hnext⟩ | ⟨-, hnil⟩⟩
    · rw [hcall] at hnext
      cases hnext
      exact .give howner'
    · rw [hcall] at hnext
      cases hnext
    · simp [Desk.next?, hnil] at hcall
  | failed p l hactive hcall hlock howner =>
    rcases hnext with ⟨howner', hnext⟩ | ⟨howner', -, ⟨-, hnext⟩ | ⟨-, hnil⟩⟩
    · rw [hcall] at hnext
      cases hnext
    · rw [hcall] at hnext
      cases hnext
      cases hlock
      exact absurd howner howner'
    · simp [Desk.next?, hnil] at hcall
  | step slot p hactive hcall howner hhead hslot =>
    rcases hnext with ⟨howner', hnext⟩ | ⟨howner', htodo, ⟨hlt, hnext⟩ | ⟨-, hnil⟩⟩
    · rw [hcall] at hnext
      cases hnext
    · rw [hcall] at hnext
      cases hnext
      exact .step slot hhead hslot hlt htodo howner' hactive.unlinked
    · simp [Desk.next?, hnil] at hcall
  | retire slot hactive hcall hslot =>
    exact .retire slot hslot (List.head?_eq_none_iff.mp (Option.map_eq_none_iff.mp hcall))

/-- Whatever a unit does, every unit stands where its turns say. -/
lemma standing_act (h : Contention w cfg c) (hs : c.Sound routine) (hdoes : c.Does t e)
    (hu : u.raw < w.size cfg) :
    Standing w.criticalSections ((c.act t e).taken u) (c.act t e).desk u := by
  have hstanding := h.standing u hu
  by_cases hut : u = t
  · subst hut
    cases h.conduct hs hdoes with
    | give howner => exact hstanding.give hs.desk howner
    | step slot hhead hslot hlt htodo howner hlink =>
      rw [Course.taken_append rfl, if_pos rfl]
      exact .take hlt htodo howner hlink
    | retire slot => exact hstanding
  · rw [Course.taken_act_of_ne hut]
    rcases hdoes.spared_or_handed hs.desk hut with hspared | ⟨l, hhanded⟩
    · exact hstanding.spared hspared
    · exact hstanding.handed hhanded

/-- Whatever a unit does, the owners followed by the queue are the takers of the turns. -/
lemma fifo_act (h : Contention w cfg c) (hs : c.Sound routine) (hconduct : Conduct w c t e) :
    (c.act t e).desk.grants lock ++ (c.act t e).desk.queue lock =
      (c.act t e).turns.map (·.2.1) := by
  cases hconduct with
  | give howner =>
    refine Eq.trans ?_ h.fifo
    cases hqueue : c.desk.queue lock with
    | nil => simp [Course.act, Desk.give_of_nil hqueue, Desk.release, Desk.pass, hqueue]
    | cons next rest =>
      simp [Course.act, Desk.give_of_cons hqueue, Desk.handOver, Desk.acquire, Desk.pass]
  | step slot =>
    by_cases hfree : c.desk.owner lock = none
    · have hqueue := hs.desk.free lock hfree
      have hgrants := h.fifo
      rw [hqueue, List.append_nil] at hgrants
      simp [Course.act, Desk.serve, Desk.take_of_free hfree, Desk.acquire, Desk.pass, hqueue,
        hgrants]
    · simp [Course.act, Desk.serve, Desk.take_of_owned hfree, Desk.await, ← h.fifo]
  | retire slot => exact h.fifo

/-- The units keep contending whatever one of them does. -/
theorem act (h : Contention w cfg c) (hs : c.Sound routine) (hdoes : c.Does t e) :
    Contention w cfg (c.act t e) where
  live := by
    refine Eq.trans ?_ h.live
    cases e <;> rfl
  staged := by
    refine Eq.trans ?_ h.staged
    cases h.conduct hs hdoes <;> rfl
  listed_le := by simpa using h.listed_le
  standing u hu := h.standing_act hs hdoes hu
  fifo := h.fifo_act hs (h.conduct hs hdoes)

/-- The units keep contending when another one is listed. -/
lemma list (h : Contention w cfg c) (hlt : c.listed < w.size cfg) : Contention w cfg c.list :=
  ⟨h.live, h.staged, hlt, h.standing, h.fifo⟩

/-- The units keep contending when one of them is looked at. -/
lemma look (h : Contention w cfg c) (t : ThreadId) (eligible : ThreadId → Bool) (index : Nat)
    (plan : RoundConfig) : Contention w cfg (c.look t eligible index plan) :=
  ⟨h.live, h.staged, h.listed_le, h.standing, h.fifo⟩

/-- The units keep contending when the round is full. -/
lemma fill (h : Contention w cfg c) (plan : RoundConfig) : Contention w cfg (c.fill plan) :=
  ⟨h.live, h.staged, h.listed_le, h.standing, h.fifo⟩

/-- A round that begins while nobody is in the queue takes nothing from anybody. -/
lemma nextRound (h : Contention w cfg c) (hlinks : ∀ t, c.desk.link t = none)
    (hqueue : c.desk.queue lock = []) : Contention w cfg c.nextRound where
  live := congrArg RoundConfig.primaries h.staged
  staged := h.staged
  listed_le := h.listed_le
  standing t ht := (h.standing t ht).spared ⟨rfl, (hlinks t).symm, fun _ => .rfl⟩
  fifo := by simpa [hqueue, Course.nextRound, Desk.clear] using h.fifo

/-- A round begins with all the steps of the plan. -/
lemma order_nextRound (h : Contention w cfg c) {k : Nat} (hk : k = 0) {p : Slot → ThreadId} :
    c.nextRound.live.order =
      ((RoundConfig.passes cfg.primaries cfg.stepsPerPrimary).drop k).filter
        fun slot => !c.nextRound.retired (p slot) := by
  rw [hk, List.drop_zero]
  exact (congrArg RoundConfig.order h.staged).trans (List.filter_eq_self.mpr fun _ _ => rfl).symm

end Contention

end Workload

end RoundScheduler
