import RoundScheduler.Proofs.Determinism.Course

/-!
# Courses are confluent

Two different ways for a sound course to go on can be taken in either order, and the result is the
same. So whatever two runs made of a course, both can be continued to a common one. What was
recorded only grows, which makes the records of the two runs prefixes of one list.
-/

namespace RoundScheduler

open Function

namespace RoundConfig

variable {c : RoundConfig} {slot u : Slot}

/-- The steps of another slot may be stripped without changing whose step is next. -/
lemma head?_strip (hhead : c.order.head? = some slot) (hne : slot ≠ u) :
    (c.strip u).order.head? = some slot := by
  cases horder : c.order with
  | nil => simp [horder] at hhead
  | cons x xs =>
    obtain rfl : x = slot := by simpa [horder] using hhead
    simp [strip, horder, hne]

/-- The next step is consumed before or after the steps of another slot are stripped. -/
lemma consume_strip (hhead : c.order.head? = some slot) (hne : slot ≠ u) :
    c.consume.strip u = (c.strip u).consume := by
  cases horder : c.order with
  | nil => simp [horder] at hhead
  | cons x xs =>
    obtain rfl : x = slot := by simpa [horder] using hhead
    simp [consume, strip, horder, hne]

/-- The steps of two slots are stripped in any order. -/
lemma strip_comm (c : RoundConfig) (slot u : Slot) :
    (c.strip slot).strip u = (c.strip u).strip slot := by
  simp only [strip, List.filter_filter, Bool.and_comm]

end RoundConfig

namespace Course

variable {eligible : ThreadId → Bool} {routine : Nat → Routine} {c c' : Course} {t u : ThreadId}
  {a b : Label} {e e' : Deed} {slot : Slot} {p : Purpose} {l : LockId}

/-! ### What a thread does next stays what it does next -/

/-- A thread goes on as before in a course that differs in nothing that matters to it. -/
lemma Does.transfer (h : c.Does u e) (hroster : u ∈ c.roster → u ∈ c'.roster)
    (hretired : c'.retired u = c.retired u) (hspared : Desk.Spared c.desk c'.desk u)
    (hslot : ∀ slot, c.primaries.idxOf? u = some slot → c'.primaries.idxOf? u = some slot)
    (hturn : ∀ slot p, e = .step slot p → c.live.order.head? = some slot →
      c.primaries[slot]? = some u → c'.live.order.head? = some slot ∧
        c'.primaries[slot]? = some u) : c'.Does u e := by
  have hactive : c'.Active u := ⟨hroster h.active.listed, hretired.trans h.active.unretired,
    hspared.link.trans h.active.unlinked⟩
  cases h with
  | refused l _ hnext howner =>
    exact .refused l hactive (hspared.next?.trans hnext) (mt (hspared.owner l).mp howner)
  | give l _ hnext howner =>
    exact .give l hactive (hspared.next?.trans hnext) ((hspared.owner l).mpr howner)
  | failed p l _ hnext hlock howner =>
    exact .failed p l hactive (hspared.next?.trans hnext) hlock ((hspared.owner l).mpr howner)
  | step slot p _ hnext howner hhead hseat =>
    obtain ⟨hhead, hseat⟩ := hturn slot p rfl hhead hseat
    exact .step slot p hactive (hspared.next?.trans hnext)
      (fun l hl => mt (hspared.owner l).mp (howner l hl)) hhead hseat
  | retire slot _ hnext hseat =>
    exact .retire slot hactive (hspared.next?.trans hnext) (hslot slot hseat)

/-- Whoever gives up a lock owns it. -/
lemma Does.owner_of_give (h : c.Does t (.give l)) : c.desk.owner l = some t := by
  cases h
  assumption

/-- Whoever takes a step owns the next one. -/
lemma Does.turn_of_step (h : c.Does t (.step slot p)) :
    c.live.order.head? = some slot ∧ c.primaries[slot]? = some t := by
  cases h
  exact ⟨‹_›, ‹_›⟩

/-- Whoever retires does so from its slot. -/
lemma Does.seat_of_retire (h : c.Does t (.retire slot)) : c.primaries[slot]? = some t := by
  cases h with
  | retire _ _ _ hslot =>
    obtain ⟨hlt, hget, -⟩ := List.idxOf?_eq_some_iff.mp hslot
    rw [List.getElem?_eq_getElem hlt, hget]

/-- Slots of different threads differ. -/
lemma slot_ne {slot' : Slot} (ht : c.primaries[slot]? = some t) (hu : c.primaries[slot']? = some u)
    (htu : t ≠ u) : slot ≠ slot' := by
  rintro rfl
  exact htu (Option.some_inj.mp (ht.symm.trans hu))

/-- What others do does not change what a thread does next. -/
lemma Does.act (hu : c.Does u e') (ht : c.Does t e) (hs : c.Sound routine) (htu : t ≠ u) :
    (c.act t e).Does u e' := by
  refine hu.transfer (fun hmem => by simpa using hmem) (retired_act_of_ne htu.symm)
    (ht.spared hs.desk htu.symm hu.active.unlinked) (fun slot hslot => by simpa using hslot) ?_
  rintro slot p rfl hhead hseat
  rw [primaries_act]
  refine ⟨?_, hseat⟩
  cases e with
  | pass v => exact hhead
  | give l => exact hhead
  | step slot' p' =>
    obtain ⟨hhead', hseat'⟩ := ht.turn_of_step
    cases hhead.symm.trans hhead'
    exact absurd rfl (slot_ne hseat' hseat htu)
  | retire slot' =>
    exact RoundConfig.head?_strip hhead (slot_ne hseat ht.seat_of_retire htu.symm)

/-- Whoever can do something can do it after a thread is listed. -/
lemma Does.list (h : c.Does u e) : c.list.Does u e :=
  h.transfer (List.mem_append_left _) rfl (.refl _ _) (fun _ => id) fun _ _ _ hhead hseat =>
    ⟨hhead, hseat⟩

/-- Whoever can do something can do it after the round is full. -/
lemma Does.fill (h : c.Does u e) (plan : RoundConfig) : (c.fill plan).Does u e :=
  h.transfer id rfl (.refl _ _) (fun _ => id) fun _ _ _ hhead hseat => ⟨hhead, hseat⟩

/-- Whoever can do something can do it after a thread is looked at. -/
lemma Does.look (h : c.Does u e) (t : ThreadId) (index : Nat) (plan : RoundConfig) :
    (c.look t eligible index plan).Does u e := by
  refine h.transfer id rfl (.refl _ _) (fun slot hslot => ?_) fun slot _ _ hhead hseat =>
    ⟨hhead, ?_⟩
  · simp only [Course.look]
    split
    · obtain ⟨hlt, hget, hfirst⟩ := List.idxOf?_eq_some_iff.mp hslot
      refine List.idxOf?_eq_some_iff.mpr ⟨by simp; omega, ?_, fun j hj => ?_⟩
      · rw [List.getElem_append_left hlt, hget]
      · rw [List.getElem_append_left (Nat.lt_trans hj hlt)]
        exact hfirst j hj
    · exact hslot
  · simp only [Course.look]
    split
    · rw [List.getElem?_append_left (List.getElem?_eq_some_iff.mp hseat).1, hseat]
    · exact hseat

/-- Who can act when the round is over is refused the release of a lock in the next one as well. -/
lemma Does.nextRound (h : c.Does t e) (hs : c.Sound routine) (ht : t ∉ c.primaries) :
    c.nextRound.Does t e := by
  obtain ⟨rfl, hnone⟩ := hs.does_of_not_primary h ht
  have hactive : c.nextRound.Active t :=
    ⟨List.mem_filter.mpr ⟨h.active.listed, by simp [h.active.unretired]⟩, rfl, rfl⟩
  cases h with
  | refused l _ hnext howner => exact .refused l hactive hnext howner

/-! ### Deeds of two threads commute -/

/-- Two threads do what they can do in any order: only one of them takes a step. -/
lemma act_comm (ht : c.Does t e) (hu : c.Does u e') (hs : c.Sound routine) (htu : t ≠ u) :
    (c.act t e).act u e' = (c.act u e').act t e := by
  have hlt := ht.active.unlinked
  have hlu := hu.active.unlinked
  cases e with
  | pass v =>
    cases e' with
    | pass v' => exact congrArg (fun d => { c with desk := d }) (Desk.pass_pass htu)
    | give l => exact congrArg (fun d => { c with desk := d }) (Desk.pass_give hs.desk htu hlt)
    | step slot p =>
      have hdesk : (c.desk.pass t v).serve c.staged u p = (c.desk.serve c.staged u p).pass t v :=
        Desk.pass_serve htu c.staged p
      simp only [Course.act, hdesk]
    | retire slot => rfl
  | give l =>
    have howner := ht.owner_of_give
    cases e' with
    | pass v' =>
      exact congrArg (fun d => { c with desk := d }) (Desk.pass_give hs.desk htu.symm hlu).symm
    | give m =>
      have hlm : l ≠ m := by
        rintro rfl
        exact htu (Option.some_inj.mp (howner.symm.trans hu.owner_of_give))
      exact congrArg (fun d => { c with desk := d }) (Desk.give_give hs.desk htu hlm hlt hlu)
    | step slot p =>
      have hdesk : (c.desk.give t l).serve c.staged u p = (c.desk.serve c.staged u p).give t l :=
        (Desk.serve_give hs.desk htu.symm hlu howner c.staged p).symm
      simp only [Course.act, hdesk]
    | retire slot => rfl
  | step slot p =>
    obtain ⟨hhead, hseat⟩ := ht.turn_of_step
    cases e' with
    | pass v' =>
      have hdesk : (c.desk.pass u v').serve c.staged t p = (c.desk.serve c.staged t p).pass u v' :=
        Desk.pass_serve htu.symm c.staged p
      simp only [Course.act, hdesk]
    | give l =>
      have hdesk : (c.desk.serve c.staged t p).give u l = (c.desk.give u l).serve c.staged t p :=
        Desk.serve_give hs.desk htu hlt hu.owner_of_give c.staged p
      simp only [Course.act, hdesk]
    | step slot' p' =>
      obtain ⟨hhead', hseat'⟩ := hu.turn_of_step
      cases hhead.symm.trans hhead'
      exact absurd rfl (slot_ne hseat hseat' htu)
    | retire slot' =>
      have hlive := RoundConfig.consume_strip hhead (slot_ne hseat hu.seat_of_retire htu)
      simp only [Course.act, hlive]
  | retire slot =>
    cases e' with
    | pass v' => rfl
    | give l => rfl
    | step slot' p' =>
      obtain ⟨hhead', hseat'⟩ := hu.turn_of_step
      have hlive := RoundConfig.consume_strip hhead' (slot_ne hseat' ht.seat_of_retire htu.symm)
      simp only [Course.act, hlive]
    | retire slot' =>
      simp only [Course.act, RoundConfig.strip_comm c.live slot, update_comm htu]

/-! ### The diamond -/

/-- A thread that is listed disturbs nothing. -/
lemma Fires.list_comm (h : Fires eligible c a c') (hs : c.Sound routine) (ha : a ≠ .list) :
    ∃ d, Fires eligible c.list a d ∧ Fires eligible c' .list d := by
  cases h with
  | list => exact absurd rfl ha
  | look index plan t hfilling hlen ht =>
    have ht' : c.list.roster[index]? = some t := by
      rw [Course.list, List.getElem?_append_left (List.getElem?_eq_some_iff.mp ht).1, ht]
    exact ⟨_, .look index plan t hfilling hlen ht', .list⟩
  | fill index plan hfilling hlen => exact ⟨_, .fill index plan hfilling hlen, .list⟩
  | next hfilling hstuck =>
    have hstuck' : ∀ t ∈ c.list.primaries, ∀ e, ¬ c.list.Does t e := fun t ht e h =>
      hstuck t ht e (h.transfer (fun _ => hs.listed t ht) rfl (.refl _ _) (fun _ => id)
        fun _ _ _ hhead hseat => ⟨hhead, hseat⟩)
    have hnew : c.retired ⟨c.listed⟩ = false :=
      Bool.eq_false_iff.mpr fun hretired =>
        Nat.lt_irrefl _ (hs.numbered _ (hs.retired _ hretired))
    have heq : c.list.nextRound = c.nextRound.list := by
      simp [Course.list, Course.nextRound, hnew]
    exact ⟨_, .next hfilling hstuck', heq ▸ .list⟩
  | act t e h =>
    have heq : c.list.act t e = (c.act t e).list := by cases e <;> rfl
    exact ⟨_, .act t e h.list, heq ▸ .list⟩

/-- A deed disturbs nothing either. -/
lemma Fires.act_comm (h : Fires eligible c a c') (ht : c.Does t e) (hs : c.Sound routine)
    (ha : a ≠ .act t) :
    ∃ d, Fires eligible (c.act t e) a d ∧ Fires eligible c' (.act t) d := by
  cases h with
  | list =>
    have heq : c.list.act t e = (c.act t e).list := by cases e <;> rfl
    exact ⟨_, .list, heq ▸ .act t e ht.list⟩
  | look index plan u hfilling hlen hu =>
    have heq : (c.look u eligible index plan).act t e = (c.act t e).look u eligible index plan := by
      cases e <;> rfl
    exact ⟨_, .look index plan u (by simpa using hfilling) (by simpa using hlen)
      (by simpa using hu), heq ▸ .act t e (ht.look u index plan)⟩
  | fill index plan hfilling hlen =>
    have heq : (c.fill plan).act t e = (c.act t e).fill plan := by cases e <;> rfl
    exact ⟨_, .fill index plan (by simpa using hfilling) (by simpa using hlen),
      heq ▸ .act t e (ht.fill plan)⟩
  | next hfilling hstuck =>
    have hprimary : t ∉ c.primaries := fun hmem => hstuck t hmem e ht
    obtain ⟨rfl, -⟩ := hs.does_of_not_primary ht hprimary
    refine ⟨_, .next hfilling fun u hu e' hu' => ?_, .act t _ (ht.nextRound hs hprimary)⟩
    have hut : u ≠ t := fun heq => hprimary (heq ▸ hu)
    exact hstuck u hu e' (hu'.transfer id rfl (Desk.spared_pass hut).symm (fun _ => id)
      fun _ _ _ hhead hseat => ⟨hhead, hseat⟩)
  | act u e' hu =>
    have htu : t ≠ u := by
      rintro rfl
      exact ha rfl
    refine ⟨_, .act u e' (hu.act ht hs htu), ?_⟩
    rw [Course.act_comm ht hu hs htu]
    exact .act t e (ht.act hu hs htu.symm)

/-- Two different ways to go on can be taken in either order, with the same result. -/
theorem diamond {c₁ c₂ : Course} (hs : c.Sound routine) (hab : a ≠ b)
    (ha : Fires eligible c a c₁) (hb : Fires eligible c b c₂) :
    ∃ d, Fires eligible c₁ b d ∧ Fires eligible c₂ a d := by
  -- Arrivals and deeds commute with everything, so the other way round they do as well.
  have hlist : b = .list → ∃ d, Fires eligible c₁ b d ∧ Fires eligible c₂ a d := by
    rintro rfl
    cases hb with
    | list => exact (ha.list_comm hs hab).imp fun _ => And.symm
  have hact : ∀ t, b = .act t → ∃ d, Fires eligible c₁ b d ∧ Fires eligible c₂ a d := by
    rintro t rfl
    cases hb with
    | act _ e ht => exact (ha.act_comm ht hs hab).imp fun _ => And.symm
  cases ha with
  | list => exact hb.list_comm hs hab.symm
  | act t e ht => exact hb.act_comm ht hs hab.symm
  | look index plan t hfilling hlen ht =>
    cases hb with
    | list => exact hlist rfl
    | act t e ht => exact hact t rfl
    | next hnone => simp [hfilling] at hnone
    | _ => exact absurd rfl hab
  | fill index plan hfilling hlen =>
    cases hb with
    | list => exact hlist rfl
    | act t e ht => exact hact t rfl
    | next hnone => simp [hfilling] at hnone
    | _ => exact absurd rfl hab
  | next hfilling hstuck =>
    cases hb with
    | list => exact hlist rfl
    | act t e ht => exact hact t rfl
    | look index plan t hsome => simp [hfilling] at hsome
    | fill index plan hsome => simp [hfilling] at hsome
    | next => exact absurd rfl hab

/-! ### Two runs -/

/-- One course comes from another, a sound one, by going on once. -/
def Goes (eligible : ThreadId → Bool) (routine : Nat → Routine) (c c' : Course) : Prop :=
  c.Sound routine ∧ ∃ a, Fires eligible c a c'

/-- Whatever two runs made of a course, they can be continued to a common one. -/
theorem join {c₁ c₂ : Course}
    (h₁ : Relation.ReflTransGen (Goes eligible routine) c c₁)
    (h₂ : Relation.ReflTransGen (Goes eligible routine) c c₂) :
    Relation.Join (Relation.ReflTransGen (Goes eligible routine)) c₁ c₂ := by
  refine Relation.church_rosser ?_ h₁ h₂
  rintro c c₁ c₂ ⟨hs, a, ha⟩ ⟨-, b, hb⟩
  by_cases hab : a = b
  · subst hab
    rw [ha.determined hb]
    exact ⟨c₂, .refl, .refl⟩
  · obtain ⟨d, hd₁, hd₂⟩ := diamond hs hab ha hb
    exact ⟨d, .single ⟨hs.fires ha, b, hd₁⟩, .single ⟨hs.fires hb, a, hd₂⟩⟩

/-- The records of the first course begin those of the second one. -/
structure Grows (c c' : Course) : Prop where
  turns : c.turns <+: c'.turns
  starts : c.starts <+: c'.starts
  grants : ∀ l, c.desk.grants l <+: c'.desk.grants l

/-- The records of a course begin themselves. -/
lemma Grows.refl (c : Course) : Grows c c :=
  ⟨List.prefix_rfl, List.prefix_rfl, fun _ => List.prefix_rfl⟩

/-- Beginnings of beginnings are beginnings. -/
lemma Grows.trans {c'' : Course} (h : Grows c c') (h' : Grows c' c'') : Grows c c'' :=
  ⟨h.turns.trans h'.turns, h.starts.trans h'.starts, fun l => (h.grants l).trans (h'.grants l)⟩

/-- To take a lock adds at most a grant. -/
lemma grants_take (d : Desk) (t : ThreadId) (l m : LockId) :
    d.grants m <+: (d.take t l).grants m := by
  by_cases hfree : d.owner l = none
  · rw [Desk.take_of_free hfree]
    by_cases hml : m = l
    · subst hml
      simp [Desk.acquire]
    · simp [Desk.acquire, Desk.pass, hml]
  · rw [Desk.take_of_owned hfree]
    exact List.prefix_rfl

/-- To give up a lock adds at most a grant. -/
lemma grants_give (d : Desk) (t : ThreadId) (l m : LockId) :
    d.grants m <+: (d.give t l).grants m := by
  cases hq : d.queue l with
  | nil =>
    rw [Desk.give_of_nil hq]
    exact List.prefix_rfl
  | cons next rest =>
    rw [Desk.give_of_cons hq]
    by_cases hml : m = l
    · subst hml
      simp [Desk.handOver, Desk.acquire, Desk.pass]
    · simp [Desk.handOver, Desk.acquire, Desk.pass, hml]

/-- What a thread does is recorded at the end. -/
lemma grows_act (c : Course) (t : ThreadId) (e : Deed) : Grows c (c.act t e) := by
  cases e with
  | pass v => exact ⟨List.prefix_rfl, List.prefix_rfl, fun _ => List.prefix_rfl⟩
  | give l => exact ⟨List.prefix_rfl, List.prefix_rfl, grants_give c.desk t l⟩
  | step slot p =>
    refine ⟨List.prefix_append _ _, List.prefix_rfl, fun m => ?_⟩
    cases p with
    | lock l => exact grants_take c.desk t l m
    | _ => exact List.prefix_rfl
  | retire slot => exact ⟨List.prefix_rfl, List.prefix_rfl, fun _ => List.prefix_rfl⟩

/-- However a course goes on, its records grow. -/
lemma Fires.grows (h : Fires eligible c a c') : Grows c c' := by
  cases h with
  | fill index plan => exact ⟨List.prefix_rfl, List.prefix_append _ _, fun _ => List.prefix_rfl⟩
  | act t e => exact grows_act c t e
  | _ => exact ⟨List.prefix_rfl, List.prefix_rfl, fun _ => List.prefix_rfl⟩

/-- The records grow along a run. -/
lemma Grows.of_path (h : Relation.ReflTransGen (Goes eligible routine) c c') : Grows c c' := by
  induction h with
  | refl => exact .refl _
  | tail _ hgoes ih =>
    obtain ⟨-, a, ha⟩ := hgoes
    exact ih.trans ha.grows

/-- The records of two runs begin those of a common course. -/
theorem exists_grows {c₁ c₂ : Course}
    (h₁ : Relation.ReflTransGen (Goes eligible routine) c c₁)
    (h₂ : Relation.ReflTransGen (Goes eligible routine) c c₂) : ∃ d, Grows c₁ d ∧ Grows c₂ d := by
  obtain ⟨d, hd₁, hd₂⟩ := join h₁ h₂
  exact ⟨d, .of_path hd₁, .of_path hd₂⟩

end Course

end RoundScheduler
