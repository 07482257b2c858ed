import RoundScheduler.Proofs.Spin.Stay

/-!
# Rounds in which nobody acted yet

A thread that closes a round begins the next one at once and fills it, all in one stay in the
critical section. In such a fresh round every primary can make progress and every step is left, and
the primaries are the first threads of the list that may be chosen. `Fresh` says so while the round
is being filled and after it. A thread is `Exposed` if it is the only primary of all rounds to come
while somebody else owns the lock that it asks for; no operation on a lock changes that on its way.
-/

namespace RoundScheduler

open State

namespace RoundConfig

variable {c : RoundConfig}

/-- The first step belongs to the first slot. -/
lemma IsRoundRobin.head?_order (h : c.IsRoundRobin) : c.order.head? = some 0 := by
  obtain ⟨hpositive, steps, hsteps, horder⟩ := h
  obtain ⟨n, hn⟩ := Nat.exists_eq_succ_of_ne_zero (Nat.pos_iff_ne_zero.mp hpositive)
  obtain ⟨m, rfl⟩ := Nat.exists_eq_succ_of_ne_zero (Nat.pos_iff_ne_zero.mp hsteps)
  rw [horder, hn, passes, List.replicate_succ, List.flatten_cons, List.range_succ_eq_map]
  rfl

/-- Every slot has a step. -/
lemma IsRoundRobin.mem_order (h : c.IsRoundRobin) {slot : Slot} (hslot : slot < c.primaries) :
    slot ∈ c.order := by
  obtain ⟨-, steps, hsteps, horder⟩ := h
  rw [horder, passes, List.mem_flatten]
  exact ⟨List.range c.primaries, List.mem_replicate.mpr ⟨Nat.pos_iff_ne_zero.mp hsteps, rfl⟩,
    List.mem_range.mpr hslot⟩

end RoundConfig

namespace State

variable {eligible : ThreadId → Bool} {s s' : State} {t u : ThreadId} {l : LockId} {index : Nat}

/-! ### Who comes first -/

/-- The listed threads, in their order, that may be primaries of the next round. -/
def runners (s : State) (eligible : ThreadId → Bool) : List ThreadId :=
  s.threadList.filter fun u => eligible u && !s.hasTerminated u

/-- The thread `t` is the only primary of the next round, and somebody else owns the lock `l`. -/
structure Exposed (s : State) (eligible : ThreadId → Bool) (t : ThreadId) (l : LockId) : Prop where
  alone : s.staged.primaries = 1
  first : (s.runners eligible).head? = some t
  owned : ∃ o, s.ownerOf? l = some o ∧ o ≠ t

/-- As long as nobody retires, the same threads may be primaries of the next round. -/
lemma Turnover.runners_eq (h : Turnover s s') (hterminated : s'.terminated = s.terminated) :
    s'.runners eligible = s.runners eligible := by
  cases h with
  | keep hround hlist hflags => rw [runners, hlist, runners, funext hflags]
  | retire t slot =>
    rw [(counters_afterRetirement slot).1] at hterminated
    omega
  | begin hround hlist hflags =>
    rw [runners, hlist, List.filter_filter, runners]
    exact List.filter_congr fun u _ => by simp [hflags]

end State

section Goto

variable {eligible : ThreadId → Bool} {s s' : State} {me : ThreadId} {ph : Phase} {point : Point}

/-- Nothing is staged while an operation goes on. -/
lemma Stretch.staged_goto (ho : Stretch eligible s me ph (.goto s' point)) :
    s'.staged = s.staged := by
  cases ho with
  | queued l k slot => exact staged_afterTurn slot
  | bootstrap | bootstrapRetirement => exact staged_beginRound
  | closed => exact staged_beginRound (s := s.closeRound)
  | retired slot => exact staged_afterRetirement slot
  | _ => rfl

/-- Nobody but a retiring thread retires. -/
lemma Stretch.terminated_goto (ho : Stretch eligible s me ph (.goto s' point))
    (hop : ph.operation ≠ .retire) : s'.terminated = s.terminated := by
  cases ho with
  | queued l k slot => exact (counters_afterTurn slot).1
  | bootstrap => exact counters_beginRound.1
  | closed => exact (counters_beginRound (s := s.closeRound)).1
  | bootstrapRetirement | retired => exact absurd rfl hop
  | _ => rfl

end Goto

/-- Who is exposed stays so, and nobody becomes exposed, while somebody acquires a lock. -/
lemma System.StandsAt.exposed_iff {sys : System} {eligible : ThreadId → Bool} {t u : ThreadId}
    {ph : Phase} {s' : State} {point : Point} {l m : LockId} (h : sys.StandsAt t ph)
    (hop : ph.operation = .lock m) (ho : Stretch eligible sys.state t ph (.goto s' point)) :
    s'.Exposed eligible u l ↔ sys.state.Exposed eligible u l := by
  have hchange : Change sys.state (some t) s' := h.invariant.stretch_change h.call rfl ho
  have hrunners : s'.runners eligible = sys.state.runners eligible :=
    (hchange.turnover h.invariant.sound).runners_eq (ho.terminated_goto (by simp [hop]))
  have hstaged := ho.staged_goto
  have howner := ho.ownerOf?_goto (m := l)
  constructor
  · rintro ⟨halone, hfirst, howned⟩
    exact ⟨hstaged ▸ halone, hrunners ▸ hfirst, howner ▸ howned⟩
  · rintro ⟨halone, hfirst, howned⟩
    exact ⟨hstaged.symm ▸ halone, hrunners.symm ▸ hfirst, howner.symm ▸ howned⟩

/-! ### Fresh rounds -/

namespace State

variable {eligible : ThreadId → Bool} {s : State} {t u : ThreadId} {index : Nat}

/-- Nobody took a step or retired in the current round, whose primaries are those of the first
`index` threads of the list that may be chosen. -/
structure Fresh (eligible : ThreadId → Bool) (index : Nat) (s : State) : Prop where
  begun : s.round ≠ 0
  live : s.live = s.staged
  unretired : ∀ u, s.hasTerminated u = false
  chosen : s.primaries = (s.threadList.take index).filter eligible
  awake : ∀ u ∈ s.primaries, s.canProgress u = true

/-- A round that begins without flags is fresh. -/
lemma Cleared.fresh_beginRound (h : Cleared s) (hroster : Roster s) :
    s.beginRound.Fresh eligible 0 where
  begun := by simp
  live := by simp
  unretired _ := h.hasTerminated_beginRound hroster
  chosen := by simp
  awake := by simp

/-- The next round is fresh. -/
lemma Sound.fresh_nextRound (h : Sound s) : s.nextRound.Fresh eligible 0 :=
  (h.seating.closeRound_cleared h.roster).fresh_beginRound h.roster.closeRound

namespace Fresh

/-- Passing over a thread keeps the round fresh. -/
lemma skip (h : s.Fresh eligible index) (hu : s.threadList[index]? = some u)
    (hrejected : eligible u = false) : s.Fresh eligible (index + 1) where
  begun := h.begun
  live := h.live
  unretired := h.unretired
  chosen := by
    rw [List.take_add_one, hu, List.filter_append, ← h.chosen]
    simp [hrejected]
  awake := h.awake

/-- Choosing a thread keeps the round fresh. -/
lemma choose (h : s.Fresh eligible index) (hs : Sound s) (hu : s.threadList[index]? = some u)
    (heligible : eligible u = true) (hnew : u ∉ s.primaries) :
    (s.choose u).Fresh eligible (index + 1) where
  begun := h.begun
  live := h.live
  unretired v := (hasTerminated_of_map record?_choose fun _ => rfl).trans (h.unretired v)
  chosen := by
    have hprimaries : (s.choose u).primaries = s.primaries ++ [u] := rfl
    have hlist : (s.choose u).threadList = s.threadList := rfl
    rw [hprimaries, hlist, List.take_add_one, hu, List.filter_append, ← h.chosen]
    simp [heligible]
  awake v hv := by
    obtain ⟨r, hr, -⟩ := hs.roster.exists_record (List.mem_of_getElem? hu)
    have hterminated : r.terminated = false := by simpa [hasTerminated, hr] using h.unretired u
    rcases List.mem_append.mp hv with hv | hv
    · exact calm_choose.canProgress (h.awake v hv)
    · rw [List.mem_singleton.mp hv]
      exact Watched.canProgress_choose hs hr hterminated hnew

/-- A round stays fresh when its start is recorded. -/
lemma recordStart (h : s.Fresh eligible index) (order : List Slot) :
    (s.recordStart order).Fresh eligible index :=
  ⟨h.begun, h.live, h.unretired, h.chosen, h.awake⟩

/-- In a fresh round all those who may be chosen are runners. -/
lemma runners_eq (h : s.Fresh eligible index) :
    s.runners eligible = s.threadList.filter eligible :=
  List.filter_congr fun u _ => by simp [h.unretired u]

/-- The primaries are the first of those that may be chosen. -/
lemma front (h : s.Fresh eligible index) : s.primaries <+: s.runners eligible := by
  rw [h.chosen, h.runners_eq]
  exact (List.take_prefix index _).filter eligible

/-- Nobody carries a flag. -/
lemma unflagged (h : s.Fresh eligible index) (hs : Sound s) : Unflagged s t := by
  cases hr : s.record? t with
  | none => exact ⟨by simp [isFinished, hr], by simp [isWaiting, hr], by simp [linkOf?, hr]⟩
  | some r =>
    have hflags : r.finished = false ∧ r.waitingForTurn = false ∧ r.enqueued = none := by
      by_cases ht : t ∈ s.primaries
      · have hcan := h.awake t ht
        simp only [canProgress, hr, Option.any_some, ThreadRecord.canProgress, Bool.and_eq_true,
          Bool.not_eq_true', Option.isNone_iff_eq_none] at hcan
        exact ⟨hcan.1.2, hcan.2, hcan.1.1.2⟩
      · have hprimary := mt (hs.seating.primary_of_mem hr).mp ht
        have hclean := mt (hs.seating.truthful t r hr).primary hprimary
        simp only [not_or, Bool.not_eq_true, ne_eq, Decidable.not_not] at hclean
        exact ⟨hclean.1, hclean.2.1, hclean.2.2.2⟩
    exact ⟨by simp [isFinished, hr, hflags], by simp [isWaiting, hr, hflags],
      by simp [linkOf?, hr, hflags]⟩

/-- Every primary has a step left. -/
lemma mem_order (h : s.Fresh eligible index) (hs : Sound s) {slot : Slot}
    (hslot : s.primaries[slot]? = some t) : slot ∈ s.live.order := by
  have hlt : slot < s.primaries.length := (List.getElem?_eq_some_iff.mp hslot).1
  have hle := hs.seating.length_le
  rw [h.live] at hle ⊢
  exact hs.seating.staged.mem_order (Nat.lt_of_lt_of_le hlt hle)

/-- The next step belongs to the first slot. -/
lemma head?_order (h : s.Fresh eligible index) (hs : Sound s) :
    s.live.order.head? = some 0 := by
  rw [h.live]
  exact hs.seating.staged.head?_order

end Fresh

end State

end RoundScheduler
