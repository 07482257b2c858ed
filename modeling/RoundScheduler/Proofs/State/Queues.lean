import RoundScheduler.Proofs.State.Seating

/-!
# The queues of locks

Who waits for a lock is known twice: the record of a thread links it to a lock, and the lock lists
the threads in its queue. This file states that the two agree, that only a lock with an owner has
waiters, and that the owner is none of them, and shows that every change of the state keeps this.
-/

namespace RoundScheduler.State

/-- The links of threads and the queues of locks agree. -/
structure Queues (s : State) : Prop where
  /-- A thread is linked to a lock exactly if the lock exists and has it in its queue. -/
  linked : ∀ t l, s.linkOf? t = some l ↔ ∃ k, s.lock? l = some k ∧ t ∈ k.queue
  /-- Nobody is in a queue twice. -/
  nodup : ∀ l k, s.lock? l = some k → k.queue.Nodup
  /-- Nobody waits for a free lock. -/
  owned : ∀ l k, s.lock? l = some k → k.owner = none → k.queue = []
  /-- The owner of a lock does not wait for it. -/
  not_queued : ∀ l k t, s.lock? l = some k → k.owner = some t → t ∉ k.queue
  /-- Locks have a number that was handed out. -/
  fresh : ∀ l k, s.lock? l = some k → l.raw < s.nextLock.raw

variable {s s' : State} {t u : ThreadId} {l : LockId}

/-- A change that leaves the links in the records leaves the links. -/
lemma linkOf?_of_map {g : ThreadRecord → ThreadRecord} (h : s'.record? u = (s.record? u).map g)
    (hg : ∀ r, (g r).enqueued = r.enqueued) : s'.linkOf? u = s.linkOf? u := by
  rw [linkOf?, h, linkOf?]
  cases s.record? u with
  | none => rfl
  | some r => exact hg r

/-- A link is what stands in the record of the thread. -/
lemma linkOf?_eq_some_iff :
    s.linkOf? t = some l ↔ ∃ r, s.record? t = some r ∧ r.enqueued = some l := by
  simp [linkOf?, Option.bind_eq_some_iff]

namespace Queues

/-- The head of a queue is linked to its lock. -/
lemma linkOf?_of_head (h : Queues s) {k : LockState} {rest : List ThreadId}
    (hk : s.lock? l = some k) (hqueue : k.queue = t :: rest) : s.linkOf? t = some l :=
  (h.linked t l).mpr ⟨k, hk, hqueue ▸ List.mem_cons_self⟩

/-- A change that touches neither links nor locks keeps the queues. -/
lemma congr (h : Queues s) (hlink : ∀ u, s'.linkOf? u = s.linkOf? u)
    (hlock : ∀ m, s'.lock? m = s.lock? m) (hnext : s'.nextLock = s.nextLock) : Queues s' where
  linked t l := by rw [hlink, hlock]; exact h.linked t l
  nodup l := by rw [hlock]; exact h.nodup l
  owned l := by rw [hlock]; exact h.owned l
  not_queued l := by rw [hlock]; exact h.not_queued l
  fresh l := by rw [hlock, hnext]; exact h.fresh l

/-! ### Turns and rounds -/

/-- To finish leaves queues and links alone. -/
lemma finish (h : Queues s) : Queues (s.finish t) :=
  h.congr (fun _ => linkOf?_of_map record?_finish fun _ => rfl) (fun _ => rfl) rfl

/-- To wait for a turn leaves queues and links alone. -/
lemma awaitTurn (h : Queues s) : Queues (s.awaitTurn t) :=
  h.congr (fun _ => linkOf?_of_map record?_awaitTurn fun _ => rfl) (fun _ => rfl) rfl

/-- A turn leaves queues and links alone. -/
lemma afterTurn (h : Queues s) (slot : Slot) : Queues (s.afterTurn t slot) := by
  have hlink : ∀ u, (s.afterTurn t slot).linkOf? u = s.linkOf? u := fun _ =>
    linkOf?_of_map (record?_afterTurn slot) fun _ => rfl
  rw [afterTurn_eq] at hlink ⊢
  exact h.congr hlink (fun _ => rfl) rfl

/-- A retirement leaves queues and links alone. -/
lemma afterRetirement (h : Queues s) (slot : Slot) : Queues (s.afterRetirement t slot) := by
  have hlink : ∀ u, (s.afterRetirement t slot).linkOf? u = s.linkOf? u := fun _ =>
    linkOf?_of_map (record?_afterRetirement slot) fun _ => rfl
  rw [afterRetirement_eq] at hlink ⊢
  exact h.congr hlink (fun _ => rfl) rfl

/-- Configurations are no matter of the queues. -/
lemma staging (h : Queues s) (n steps : Nat) (c : RoundConfig) : Queues (s.staging t n steps c) :=
  h.congr (fun _ => rfl) (fun _ => rfl) rfl

/-- To choose a primary leaves queues and links alone. -/
lemma choose (h : Queues s) : Queues (s.choose t) :=
  h.congr (fun _ => linkOf?_of_map record?_choose fun _ => rfl) (fun _ => rfl) rfl

/-- The record of a start is no matter of the queues. -/
lemma recordStart (h : Queues s) (order : List Slot) : Queues (s.recordStart order) :=
  h.congr (fun _ => rfl) (fun _ => rfl) rfl

/-- Whoever is detached has no link, and the others keep theirs. -/
lemma linkOf?_detach (ts : List ThreadId) :
    (s.detach ts).linkOf? u = if u ∈ ts then none else s.linkOf? u := by
  rw [linkOf?, record?_detach, linkOf?]
  cases s.record? u <;> simp

/-- A change of some locks keeps the queues if it keeps them for every lock. -/
lemma amend (h : Queues s) {f : LockId → LockState → LockState}
    (hlock : ∀ m, s'.lock? m = (s.lock? m).map (f m)) (hnext : s'.nextLock = s.nextLock)
    (hlinked : ∀ u m, s'.linkOf? u = some m ↔ ∃ k, s.lock? m = some k ∧ u ∈ (f m k).queue)
    (hlocal : ∀ m k, s.lock? m = some k → (f m k).queue.Nodup ∧
      ((f m k).owner = none → (f m k).queue = []) ∧
      ∀ u, (f m k).owner = some u → u ∉ (f m k).queue) : Queues s' := by
  have hback : ∀ m k', s'.lock? m = some k' → ∃ k, s.lock? m = some k ∧ f m k = k' := by
    intro m k' hk'
    rw [hlock] at hk'
    exact Option.map_eq_some_iff.mp hk'
  constructor
  case linked =>
    intro u m
    rw [hlinked, hlock]
    constructor
    · rintro ⟨k, hk, hmem⟩
      exact ⟨f m k, by rw [hk]; rfl, hmem⟩
    · rintro ⟨k', hk', hmem⟩
      obtain ⟨k, hk, rfl⟩ := Option.map_eq_some_iff.mp hk'
      exact ⟨k, hk, hmem⟩
  case nodup =>
    intro m k' hk'
    obtain ⟨k, hk, rfl⟩ := hback m k' hk'
    exact (hlocal m k hk).1
  case owned =>
    intro m k' hk'
    obtain ⟨k, hk, rfl⟩ := hback m k' hk'
    exact (hlocal m k hk).2.1
  case not_queued =>
    intro m k' u hk'
    obtain ⟨k, hk, rfl⟩ := hback m k' hk'
    exact (hlocal m k hk).2.2 u
  case fresh =>
    intro m k' hk'
    obtain ⟨k, hk, -⟩ := hback m k' hk'
    exact hnext ▸ h.fresh m k hk

/-- Taking threads out of the queues in which they are linked leaves nobody behind. -/
lemma detach (h : Queues s) (ts : List ThreadId) : Queues (s.detach ts) := by
  refine h.amend (fun _ => lock?_detach ts) rfl (fun u m => ?_) fun m k hk => ?_
  · rw [linkOf?_detach]
    constructor
    · intro hlink
      split at hlink
      · cases hlink
      · next hu =>
        obtain ⟨k, hk, hmem⟩ := (h.linked u m).mp hlink
        exact ⟨k, hk, by simp [hmem, hu]⟩
    · rintro ⟨k, hk, hmem⟩
      obtain ⟨hmem, hkept⟩ := List.mem_filter.mp hmem
      have hlink := (h.linked u m).mpr ⟨k, hk, hmem⟩
      have hu : u ∉ ts := by simpa [hlink] using hkept
      rw [if_neg hu, hlink]
  · refine ⟨(h.nodup m k hk).filter _, fun hfree => ?_, fun u howner hmem => ?_⟩
    · rw [h.owned m k hk hfree]
      rfl
    · exact h.not_queued m k u hk howner (List.mem_filter.mp hmem).1

/-- The end of a round takes its primaries out of queues and links alike. -/
lemma closeRound (h : Queues s) : Queues s.closeRound := by
  refine (h.detach s.primaries).congr (fun u => ?_) (fun _ => rfl) rfl
  rw [linkOf?_detach, linkOf?, record?_closeRound, linkOf?]
  cases s.record? u <;> simp

/-- Nobody is queued at the start of a round, so nobody who is queued is removed from the list. -/
lemma beginRound (h : Queues s) (hclear : Cleared s) (hkeys : s.records.keys.Nodup) :
    Queues s.beginRound := by
  have hbefore : ∀ u, s.linkOf? u = none := by
    intro u
    cases hr : s.record? u with
    | none => simp [linkOf?, hr]
    | some r => simp [linkOf?, hr, (hclear.clear u r hr).2.2.2]
  have hafter : ∀ u, s.beginRound.linkOf? u = none := by
    intro u
    cases hr : s.beginRound.record? u with
    | none => simp [linkOf?, hr]
    | some r => simp [linkOf?, hr, (hclear.record?_beginRound hkeys hr).2.2.2.1]
  exact h.congr (fun u => (hafter u).trans (hbefore u).symm) (fun _ => lock?_beginRound)
    nextLock_beginRound

/-! ### Locks -/

/-- A free lock has an empty queue, so its new owner is not in it. -/
lemma grant (h : Queues s) {k : LockState} (hk : s.lock? l = some k) (hfree : k.owner = none) :
    Queues (s.grant l t) := by
  refine h.amend (fun _ => lock?_grant) rfl h.linked fun m k' hk' => ⟨h.nodup m k' hk', ?_⟩
  by_cases hm : m = l
  · subst hm
    obtain rfl : k = k' := Option.some_inj.mp (hk.symm.trans hk')
    simp [h.owned m k hk hfree]
  · simpa only [if_neg hm] using ⟨h.owned m k' hk', fun u => h.not_queued m k' u hk'⟩

/-- A lock with an empty queue may be left without an owner. -/
lemma release (h : Queues s) {k : LockState} (hk : s.lock? l = some k) (hempty : k.queue = []) :
    Queues (s.release l) := by
  refine h.amend (fun _ => lock?_release) rfl h.linked fun m k' hk' => ⟨h.nodup m k' hk', ?_⟩
  by_cases hm : m = l
  · subst hm
    obtain rfl : k = k' := Option.some_inj.mp (hk.symm.trans hk')
    simp [hempty]
  · simpa only [if_neg hm] using ⟨h.owned m k' hk', fun u => h.not_queued m k' u hk'⟩

/-- A thread without a link queues behind another owner: it is in one queue, once. -/
lemma enqueue (h : Queues s) {k : LockState} {r : ThreadRecord} (hk : s.lock? l = some k)
    (hr : s.record? t = some r) (hfree : r.enqueued = none) (howner : k.owner ≠ none)
    (hother : k.owner ≠ some t) : Queues (s.enqueue l t) := by
  have hnolink : ∀ m, s.linkOf? t ≠ some m := by simp [linkOf?, hr, hfree]
  have hlink : ∀ u, (s.enqueue l t).linkOf? u = if u = t then some l else s.linkOf? u := by
    intro u
    rw [linkOf?, record?_enqueue, linkOf?]
    by_cases hu : u = t
    · simp [hu, hr]
    · cases s.record? u <;> simp [hu]
  refine h.amend (fun _ => lock?_enqueue) rfl (fun u m => ?_) fun m k' hk' => ?_
  · rw [hlink]
    by_cases hu : u = t
    · subst hu
      have hnot : ∀ k', s.lock? m = some k' → u ∉ k'.queue := fun k' hk' hmem =>
        hnolink m ((h.linked u m).mpr ⟨k', hk', hmem⟩)
      grind
    · grind [h.linked u m]
  · by_cases hm : m = l
    · subst hm
      obtain rfl : k = k' := Option.some_inj.mp (hk.symm.trans hk')
      have hnot : t ∉ k.queue := fun hmem => hnolink m ((h.linked t m).mpr ⟨k, hk, hmem⟩)
      have hdisj : ∀ a ∈ k.queue, ∀ b ∈ [t], a ≠ b := by grind
      simp only [if_true]
      refine ⟨List.nodup_append.mpr ⟨h.nodup m k hk, by simp, hdisj⟩,
        fun hnone => absurd hnone howner, fun u hu => ?_⟩
      have hut : u ≠ t := fun he => hother (he ▸ hu)
      simp [h.not_queued m k u hk hu, hut]
    · simpa only [if_neg hm] using
        ⟨h.nodup m k' hk', h.owned m k' hk', fun u => h.not_queued m k' u hk'⟩

/-- Handing a lock to the head of its queue takes the new owner out of the queue. -/
lemma handOver (h : Queues s) {k : LockState} (hk : s.lock? l = some k) (ht : t ∈ k.queue) :
    Queues (s.handOver l t) := by
  have hlinkt : s.linkOf? t = some l := (h.linked t l).mpr ⟨k, hk, ht⟩
  have hd := h.detach [t]
  have hlink : ∀ u, (s.handOver l t).linkOf? u = (s.detach [t]).linkOf? u := fun u => by
    rw [linkOf?, record?_handOver, linkOf?, record?_detach]
  have hlock : ∀ m, (s.handOver l t).lock? m = ((s.detach [t]).lock? m).map fun k =>
      { k with owner := if m = l then some t else k.owner } := by
    intro m
    rw [lock?_handOver, lock?_detach, Option.map_map]
    simp [Function.comp_def]
  refine hd.amend hlock rfl (fun u m => (hlink u).symm ▸ hd.linked u m) fun m k' hk' =>
    ⟨hd.nodup m k' hk', ?_⟩
  by_cases hm : m = l
  · subst hm
    have hgone : t ∉ k'.queue := fun hmem => by
      have := (hd.linked t m).mpr ⟨k', hk', hmem⟩
      simp [linkOf?_detach] at this
    simpa using hgone
  · simpa only [if_neg hm] using ⟨hd.owned m k' hk', fun u => hd.not_queued m k' u hk'⟩

/-- Whoever is not linked to a lock is not in its queue. -/
lemma forget (h : Queues s) (ht : s.linkOf? t ≠ some l) : Queues (s.forget l t) := by
  refine h.amend (fun _ => lock?_forget) rfl (fun u m => ?_) fun m k' hk' => ?_
  · have hlink : (s.forget l t).linkOf? u = s.linkOf? u := rfl
    rw [hlink, h.linked]
    have hkeep : ∀ k', s.lock? m = some k' → m = l → u ∈ k'.queue → u ≠ t := by
      rintro k' hk' rfl hmem rfl
      exact ht ((h.linked u m).mpr ⟨k', hk', hmem⟩)
    grind
  · have hnodup := h.nodup m k' hk'
    have howned := h.owned m k' hk'
    have hnot := fun u => h.not_queued m k' u hk'
    by_cases hm : m = l
    · simp only [if_pos hm]
      refine ⟨hnodup.filter _, fun hfree => by rw [howned hfree]; rfl, fun u hu hmem => ?_⟩
      exact hnot u hu (List.mem_filter.mp hmem).1
    · simpa only [if_neg hm] using ⟨hnodup, howned, hnot⟩

/-- A new lock has an empty queue, and no link was ever made to it. -/
lemma registerLock (h : Queues s) : Queues s.registerLock := by
  have hnew : s.lock? s.nextLock = none := by
    cases hk : s.lock? s.nextLock with
    | none => rfl
    | some k => exact absurd (h.fresh _ k hk) (Nat.lt_irrefl _)
  have hback : ∀ m k, s.registerLock.lock? m = some k → k = {} ∧ m = s.nextLock ∨
      s.lock? m = some k := by
    intro m k hk
    rw [lock?_registerLock] at hk
    split at hk
    · next hm => exact .inl ⟨(Option.some_inj.mp hk).symm, hm⟩
    · exact .inr hk
  constructor
  case linked =>
    intro u m
    have hlink : s.registerLock.linkOf? u = s.linkOf? u := rfl
    rw [hlink, h.linked, lock?_registerLock]
    grind
  case nodup =>
    intro m k hk
    rcases hback m k hk with ⟨rfl, -⟩ | hk
    · exact List.nodup_nil
    · exact h.nodup m k hk
  case owned =>
    intro m k hk hfree
    rcases hback m k hk with ⟨rfl, -⟩ | hk
    · rfl
    · exact h.owned m k hk hfree
  case not_queued =>
    intro m k u hk howner
    rcases hback m k hk with ⟨rfl, -⟩ | hk
    · cases howner
    · exact h.not_queued m k u hk howner
  case fresh =>
    intro m k hk
    have hnext : s.registerLock.nextLock.raw = s.nextLock.raw + 1 := rfl
    rw [hnext]
    rcases hback m k hk with ⟨-, rfl⟩ | hk
    · exact Nat.lt_succ_self _
    · exact Nat.lt_succ_of_lt (h.fresh m k hk)

/-- A lock without requests may be dropped. -/
lemma dropLock (h : Queues s) (hl : (s.lock? l).isSome) (hunused : ∀ t, s.linkOf? t ≠ some l) :
    Queues (s.dropLock l) := by
  have hlock := fun m => lock?_dropLock (m := m) hl
  have hlink : ∀ u, (s.dropLock l).linkOf? u = s.linkOf? u := by
    rw [dropLock_eq hl]
    exact fun _ => rfl
  have hnext : (s.dropLock l).nextLock = s.nextLock := by rw [dropLock_eq hl]
  have hback : ∀ m k, (s.dropLock l).lock? m = some k → s.lock? m = some k := by
    intro m k hk
    rw [hlock] at hk
    split at hk
    · cases hk
    · exact hk
  constructor
  case linked =>
    intro u m
    rw [hlink, h.linked, hlock]
    have hother : (∃ k, s.lock? m = some k ∧ u ∈ k.queue) → m ≠ l := by
      rintro hmem rfl
      exact hunused u ((h.linked u m).mpr hmem)
    grind
  case nodup => exact fun m k hk => h.nodup m k (hback m k hk)
  case owned => exact fun m k hk => h.owned m k (hback m k hk)
  case not_queued => exact fun m k u hk => h.not_queued m k u (hback m k hk)
  case fresh => exact fun m k hk => hnext ▸ h.fresh m k (hback m k hk)

/-! ### Admission -/

/-- A new thread has no link. -/
lemma enrol (h : Queues s) (hroster : Roster s) : Queues s.enrol := by
  refine h.congr (fun u => ?_) (fun _ => rfl) rfl
  have hnew := hroster.nextThread_unknown
  rw [linkOf?, record?_enrol, linkOf?]
  split
  · next hu => simp_all [started?]
  · rfl

/-- To wait to be listed is no matter of the queues. -/
lemma awaitAdmission (h : Queues s) : Queues (s.awaitAdmission t) :=
  h.congr (fun _ => rfl) (fun _ => rfl) rfl

/-- To be listed is no matter of the queues. -/
lemma list (h : Queues s) (w : Work) : Queues (s.list t w) :=
  h.congr (fun _ => linkOf?_of_map (record?_list w) fun _ => rfl) (fun _ => rfl) rfl

end Queues

end RoundScheduler.State
