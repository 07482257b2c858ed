import Mathlib.Data.List.Count
import RoundScheduler.Proofs.State.Chronicle

/-!
# Who is listed and who retired

Threads join the list when they arrive and are flagged when they retire; the next start of a round
takes those with the flag from the list. `Turnover` says that no change does anything else to the
list or to the flags. From it follows that threads are counted correctly, that every retirement of
the current round was recorded, and that whoever left the list does not come back.
-/

namespace RoundScheduler.State

variable {s s' : State} {t u : ThreadId}

/-- A change that leaves the flag of retirement leaves those who retired. -/
lemma hasTerminated_of_map {g : ThreadRecord → ThreadRecord}
    (hrecord : s'.record? t = (s.record? t).map g) (hg : ∀ r, (g r).terminated = r.terminated) :
    s'.hasTerminated t = s.hasTerminated t := by
  rw [hasTerminated, hrecord, hasTerminated]
  cases s.record? t with
  | none => rfl
  | some r => exact hg r

/-- What a change does to the list, to the flags of those who retired and to the counters. -/
inductive Turnover (s : State) : State → Prop
  /-- Nobody retires, and no round begins. -/
  | keep {s' : State} (hround : s'.round = s.round) (hlist : s'.threadList = s.threadList)
    (hflags : ∀ t, s'.hasTerminated t = s.hasTerminated t)
    (hterminated : s'.terminated = s.terminated) (hscheduled : s'.scheduled = s.scheduled) :
    Turnover s s'
  /-- A primary retires. -/
  | retire (t : ThreadId) (slot : Slot) (hslot : s.primaries[slot]? = some t)
    (ht : s.hasTerminated t = false) : Turnover s (s.afterRetirement t slot)
  /-- A round begins, without the threads that retired. -/
  | begin {s' : State} (hround : s'.round = s.round + 1)
    (hlist : s'.threadList = s.threadList.filter fun t => !s.hasTerminated t)
    (hflags : ∀ t, s'.hasTerminated t = false) (hterminated : s'.terminated = s.terminated)
    (hscheduled : s'.scheduled = s.scheduled) : Turnover s s'

/-- Nobody is flagged at the start of a round. -/
lemma Cleared.hasTerminated_beginRound (h : Cleared s) (hroster : Roster s) :
    s.beginRound.hasTerminated t = false := by
  rw [hasTerminated]
  cases hr : s.beginRound.record? t with
  | none => rfl
  | some r => exact (h.record?_beginRound hroster.keys_nodup hr).2.2.2.2

/-- The beginning of a round counts nobody. -/
lemma counters_beginRound :
    s.beginRound.terminated = s.terminated ∧ s.beginRound.scheduled = s.scheduled := by
  rw [beginRound_eq_ite]
  split <;> exact ⟨rfl, rfl⟩

/-- A turn counts nobody. -/
lemma counters_afterTurn (slot : Slot) : (s.afterTurn t slot).terminated = s.terminated ∧
    (s.afterTurn t slot).scheduled = s.scheduled := by
  rw [afterTurn_eq]
  exact ⟨rfl, rfl⟩

/-- A retirement counts one thread that retired. -/
lemma counters_afterRetirement (slot : Slot) :
    (s.afterRetirement t slot).terminated = s.terminated + 1 ∧
      (s.afterRetirement t slot).scheduled = s.scheduled := by
  rw [afterRetirement_eq]
  exact ⟨rfl, rfl⟩

/-- A turn retires nobody. -/
lemma hasTerminated_afterTurn (slot : Slot) :
    (s.afterTurn t slot).hasTerminated u = s.hasTerminated u :=
  hasTerminated_of_map (record?_afterTurn slot) fun _ => rfl

/-- Every change does one of these things. -/
theorem Change.turnover {w : Option ThreadId} (hc : Change s w s') (hs : Sound s) :
    Turnover s s' := by
  cases hc with
  | finish =>
    exact .keep rfl rfl (fun _ => hasTerminated_of_map record?_finish fun _ => rfl) rfl rfl
  | awaitTurn =>
    exact .keep rfl rfl (fun _ => hasTerminated_of_map record?_awaitTurn fun _ => rfl) rfl rfl
  | retire t slot hslot hterminated => exact .retire t slot hslot hterminated
  | bootstrap hround =>
    exact .begin round_beginRound threadList_beginRound
      (fun _ => (hs.seating.cleared_of_unbegun hround).hasTerminated_beginRound hs.roster)
      counters_beginRound.1 counters_beginRound.2
  | next =>
    have hclose : ∀ t, s.closeRound.hasTerminated t = s.hasTerminated t := fun _ =>
      hasTerminated_of_map record?_closeRound fun _ => rfl
    have hlist : s.nextRound.threadList = s.threadList.filter fun t => !s.hasTerminated t := by
      rw [nextRound, threadList_beginRound, funext hclose]
      rfl
    exact .begin round_nextRound hlist (fun _ =>
      (hs.seating.closeRound_cleared hs.roster).hasTerminated_beginRound hs.roster.closeRound)
      (counters_beginRound (s := s.closeRound)).1 (counters_beginRound (s := s.closeRound)).2
  | turn t slot | grant t slot | stage t slot =>
    obtain ⟨hterminated, hscheduled⟩ := counters_afterTurn slot
    exact .keep (round_afterTurn slot) (threadList_afterTurn slot)
      (fun _ => hasTerminated_afterTurn slot) hterminated hscheduled
  | enqueue t slot l =>
    have hqueue : ∀ u, ((s.afterTurn t slot).enqueue l t).hasTerminated u =
        (s.afterTurn t slot).hasTerminated u := fun _ =>
      hasTerminated_of_map record?_enqueue fun _ => rfl
    exact .keep (round_afterTurn slot) (threadList_afterTurn slot)
      (fun u => (hqueue u).trans (hasTerminated_afterTurn slot)) (counters_afterTurn slot).1
      (counters_afterTurn slot).2
  | choose =>
    exact .keep rfl rfl (fun _ => hasTerminated_of_map record?_choose fun _ => rfl) rfl rfl
  | unlink t =>
    exact .keep rfl rfl (fun _ => hasTerminated_of_map (record?_detach [t]) fun _ => rfl) rfl rfl
  | handOver =>
    exact .keep rfl rfl (fun _ => hasTerminated_of_map record?_handOver fun _ => rfl) rfl rfl
  | dropLock l hl =>
    rw [dropLock_eq hl]
    exact .keep rfl rfl (fun _ => rfl) rfl rfl
  | _ => exact .keep rfl rfl (fun _ => rfl) rfl rfl

/-- Nobody is counted as listed by a change. -/
lemma Change.scheduled_eq {w : Option ThreadId} (hc : Change s w s') (hs : Sound s) :
    s'.scheduled = s.scheduled := by
  cases hc.turnover hs with
  | keep _ _ _ _ hscheduled => exact hscheduled
  | retire t slot => exact (counters_afterRetirement slot).2
  | begin _ _ _ _ hscheduled => exact hscheduled

/-- The list loses the retired threads when a round begins, and nobody else at any time. -/
lemma Change.threadList_eq {w : Option ThreadId} (hc : Change s w s') (hs : Sound s) :
    s'.round = s.round ∧ s'.threadList = s.threadList ∨
      s'.round = s.round + 1 ∧
        s'.threadList = s.threadList.filter fun t => !s.hasTerminated t := by
  cases hc.turnover hs with
  | keep hround hlist => exact .inl ⟨hround, hlist⟩
  | retire t slot => exact .inl ⟨round_afterRetirement slot, threadList_afterRetirement slot⟩
  | begin hround hlist => exact .inr ⟨hround, hlist⟩

/-- Only threads that started retire. -/
lemma Sound.not_terminated_of_unstarted (h : Sound s) (ht : s.started? t = some false) :
    s.hasTerminated t = false := by
  obtain ⟨r, hr, hstarted⟩ := Option.map_eq_some_iff.mp ht
  rw [hasTerminated, hr]
  refine Bool.eq_false_iff.mpr fun hterminated => ?_
  have hprimary := (h.seating.truthful t r hr).primary (.inr (.inr (.inl hterminated)))
  exact Bool.false_ne_true (hstarted.symm.trans (h.seating.started t r hr hprimary))

/-- Nobody retires by an arrival. -/
lemma Arrival.hasTerminated_eq (ha : Arrival s s') (hs : Sound s) :
    s'.hasTerminated t = s.hasTerminated t := by
  have henrol : s.enrol.hasTerminated t = s.hasTerminated t := by
    rw [hasTerminated, record?_enrol, hasTerminated]
    split
    · next ht =>
      have hnone : s.record? s.nextThread = none := by
        simpa [started?] using hs.roster.nextThread_unknown
      simp [ht, hnone]
    · rfl
  cases ha with
  | enrol | block => exact henrol
  | list u w => exact hasTerminated_of_map (record?_list w) fun _ => rfl

/-- A retirement retires one thread. -/
lemma hasTerminated_afterRetirement {slot : Slot} (hr : (s.record? t).isSome) :
    (s.afterRetirement t slot).hasTerminated u = if u = t then true else s.hasTerminated u := by
  rw [hasTerminated, record?_afterRetirement, hasTerminated]
  by_cases hu : u = t
  · obtain ⟨r, hr⟩ := Option.isSome_iff_exists.mp hr
    simp [hu, hr]
  · cases s.record? u <;> simp [hu]

/-! ### The tally -/

/-- The threads that were ever listed are those that retired and those that are listed and have not
retired. -/
def Tallied (s : State) : Prop :=
  s.terminated + s.threadList.countP (fun t => !s.hasTerminated t) = s.scheduled

/-- If one entry of a list loses a property, one entry fewer has it. -/
lemma countP_eq_succ {ts : List ThreadId} {p q : ThreadId → Bool} (hnodup : ts.Nodup) (ht : t ∈ ts)
    (hp : p t = true) (hq : q t = false) (hpq : ∀ u, u ≠ t → q u = p u) :
    ts.countP p = ts.countP q + 1 := by
  have hrest : (ts.erase t).countP q = (ts.erase t).countP p :=
    List.countP_congr fun u hu => by rw [hpq u (hnodup.mem_erase_iff.mp hu).1]
  rw [(List.perm_cons_erase ht).countP_eq p, (List.perm_cons_erase ht).countP_eq q,
    List.countP_cons_of_pos hp, List.countP_cons_of_neg (by simp [hq]), hrest]

/-- Every change keeps the tally. -/
theorem Change.tallied {w : Option ThreadId} (hc : Change s w s') (hs : Sound s) (h : Tallied s) :
    Tallied s' := by
  rw [Tallied] at h ⊢
  cases hc.turnover hs with
  | keep hround hlist hflags hterminated hscheduled =>
    rw [hlist, hterminated, hscheduled, funext hflags]
    exact h
  | retire t slot hslot ht =>
    obtain ⟨r, hr, hprimary⟩ := hs.seating.primary_of_slot hslot
    have hlisted : t ∈ s.threadList := hs.roster.mem_list hr (hs.seating.started t r hr hprimary)
    have hflag : ∀ u, (s.afterRetirement t slot).hasTerminated u =
        if u = t then true else s.hasTerminated u :=
      fun _ => hasTerminated_afterRetirement (by simp [hr])
    have hcount := countP_eq_succ hs.roster.list_nodup hlisted
      (p := fun u => !s.hasTerminated u) (q := fun u => !(s.afterRetirement t slot).hasTerminated u)
      (by simp [ht]) (by simp [hflag]) fun u hu => by simp [hflag, hu]
    rw [threadList_afterRetirement, (counters_afterRetirement slot).1,
      (counters_afterRetirement slot).2]
    omega
  | begin hround hlist hflags hterminated hscheduled =>
    have hall : (fun t => !s'.hasTerminated t) = fun _ => true := funext fun t => by simp [hflags]
    rw [hlist, hterminated, hscheduled, hall, List.countP_true, ← List.countP_eq_length_filter]
    exact h

/-- Every arrival keeps the tally. -/
theorem Arrival.tallied (ha : Arrival s s') (hs : Sound s) (h : Tallied s) : Tallied s' := by
  have hflags := funext fun u => congrArg (!·) (ha.hasTerminated_eq (t := u) hs)
  rw [Tallied] at h ⊢
  rw [hflags]
  cases ha with
  | enrol | block => exact h
  | list t w ht hqueue =>
    have hlist : (s.list t w).threadList = s.threadList ++ [t] := rfl
    have hnew : [t].countP (fun u => !s.hasTerminated u) = 1 := by
      simp [hs.not_terminated_of_unstarted ht]
    rw [hlist, List.countP_append, hnew, ← Nat.add_assoc]
    exact congrArg (· + 1) h

/-! ### Recorded retirements -/

/-- Whoever is flagged retired in the current round, and that was recorded. -/
def Registered (s : State) : Prop :=
  ∀ t, s.hasTerminated t = true → .terminated s.round t ∈ s.events

/-- Every change keeps it. -/
theorem Change.registered {w : Option ThreadId} (hc : Change s w s') (hs : Sound s)
    (h : Registered s) : Registered s' := by
  obtain ⟨new, hevents, -⟩ := hc.exists_new
  intro t ht
  cases hc.turnover hs with
  | keep hround hlist hflags =>
    rw [hround, hevents]
    exact List.mem_append_left _ (h t (hflags t ▸ ht))
  | retire u slot hslot hu =>
    obtain ⟨r, hr, -⟩ := hs.seating.primary_of_slot hslot
    rw [hasTerminated_afterRetirement (by simp [hr])] at ht
    rw [round_afterRetirement, events_afterRetirement]
    by_cases htu : t = u
    · simp [htu]
    · rw [if_neg htu] at ht
      exact List.mem_append_left _ (h t ht)
  | begin hround hlist hflags => exact absurd ((hflags t).symm.trans ht) Bool.false_ne_true

/-- Every arrival keeps it. -/
lemma Arrival.registered (ha : Arrival s s') (hs : Sound s) (h : Registered s) : Registered s' := by
  have hround : s'.round = s.round := by cases ha <;> rfl
  intro t ht
  rw [hround, ha.events_eq]
  exact h t (ha.hasTerminated_eq hs ▸ ht)

/-! ### Leaving the list -/

/-- A thread retired and was taken from the list. -/
def Departed (s : State) (t : ThreadId) : Prop := s.IsBuried t ∧ t ∉ s.threadList

/-- Nobody joins the list by a change. -/
lemma Change.threadList_sublist {w : Option ThreadId} (hc : Change s w s') (hs : Sound s) :
    s'.threadList.Sublist s.threadList := by
  rcases hc.threadList_eq hs with ⟨-, hlist⟩ | ⟨-, hlist⟩
  · exact hlist ▸ List.Sublist.refl _
  · exact hlist ▸ List.filter_sublist

/-- Whoever left the list does not come back by a change. -/
lemma Change.departed {w : Option ThreadId} (hc : Change s w s') (hs : Sound s)
    (h : Departed s t) : Departed s' t :=
  ⟨hc.isBuried hs h.1, fun ht => h.2 ((hc.threadList_sublist hs).mem ht)⟩

/-- Whoever left the list does not come back by an arrival. -/
lemma Arrival.departed (ha : Arrival s s') (hs : Sound s) (h : Departed s t) : Departed s' t := by
  refine ⟨ha.isBuried h.1, fun ht => ?_⟩
  cases ha with
  | enrol | block => exact h.2 ht
  | list u w hu hqueue =>
    have hmem : t ∈ s.threadList ++ [u] := ht
    rcases List.mem_append.mp hmem with hmem | hmem
    · exact h.2 hmem
    · -- Who is listed did not start before, so it cannot have retired.
      obtain rfl := List.mem_singleton.mp hmem
      obtain ⟨r, hr, -⟩ := Option.map_eq_some_iff.mp hu
      have hterminated := hs.not_terminated_of_unstarted hu
      simp [hasTerminated, hr, h.1.2 r hr] at hterminated

end RoundScheduler.State
