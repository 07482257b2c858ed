import RoundScheduler.Proofs.Admission
import RoundScheduler.Proofs.Formation
import RoundScheduler.Proofs.LockOrder

/-!
# Threads that own locks

If no thread asks for a lock while it owns one, none retires while it owns one, and the number of
primaries never shrinks, then the owner of a lock is never left out of a round: it stands so far in
front of the list that it is chosen again and again until it releases the lock, and it waits for no
lock meanwhile. `Orderly` states both facts, and every move of that kind keeps them.
-/

namespace RoundScheduler

open State

namespace State

variable {s s' : State} {t u : ThreadId} {l m : LockId}

/-- The thread `t` owns no lock. -/
def OwnsNothing (s : State) (t : ThreadId) : Prop := ∀ l, s.ownerOf? l ≠ some t

/-- A thread without locks owns nothing. -/
lemma ownsNothing_of_locksOf (h : s.locksOf t = []) : s.OwnsNothing t := by
  intro l howner
  obtain ⟨k, hk, howner⟩ := ownerOf?_eq_some_iff.mp howner
  have hentry := Table.mem_entries_of_get?_eq_some hk
  have hl : l ∈ s.locksOf t :=
    List.mem_map.mpr ⟨(l, k), List.mem_filter.mpr ⟨hentry, by simp [howner]⟩, rfl⟩
  exact absurd (h ▸ hl) List.not_mem_nil

/-! ### Owners after a change -/

/-- A change that leaves the owners in the locks leaves the owners. -/
lemma ownerOf?_of_map {f : LockState → LockState} (hlock : s'.lock? m = (s.lock? m).map f)
    (hf : ∀ k, (f k).owner = k.owner) : s'.ownerOf? m = s.ownerOf? m := by
  rw [ownerOf?, hlock, ownerOf?]
  cases s.lock? m with
  | none => rfl
  | some k => exact hf k

/-- The owner is a matter of the lock alone. -/
lemma ownerOf?_congr (hlock : s'.lock? m = s.lock? m) : s'.ownerOf? m = s.ownerOf? m := by
  rw [ownerOf?, hlock, ownerOf?]

/-- A turn by itself changes no owner. -/
@[simp] lemma ownerOf?_afterTurn (slot : Slot) : (s.afterTurn t slot).ownerOf? m = s.ownerOf? m :=
  ownerOf?_congr (lock?_afterTurn slot)

/-- A thread that retires keeps its locks. -/
@[simp] lemma ownerOf?_afterRetirement (slot : Slot) :
    (s.afterRetirement t slot).ownerOf? m = s.ownerOf? m :=
  ownerOf?_congr (lock?_afterRetirement slot)

/-- A request that queues changes no owner. -/
@[simp] lemma ownerOf?_enqueue : (s.enqueue l t).ownerOf? m = s.ownerOf? m :=
  ownerOf?_of_map lock?_enqueue fun _ => rfl

/-- The beginning of a round changes no owner. -/
@[simp] lemma ownerOf?_beginRound : s.beginRound.ownerOf? m = s.ownerOf? m :=
  ownerOf?_congr lock?_beginRound

/-- No lock changes its owner between two rounds. -/
@[simp] lemma ownerOf?_nextRound : s.nextRound.ownerOf? m = s.ownerOf? m :=
  ownerOf?_of_map lock?_nextRound fun _ => rfl

/-- A released lock has no owner. -/
lemma ownerOf?_release : (s.release l).ownerOf? m = if m = l then none else s.ownerOf? m := by
  rw [ownerOf?, lock?_release, ownerOf?]
  cases s.lock? m <;> simp

/-- A granted lock belongs to the thread. -/
lemma ownerOf?_grant (hl : (s.lock? l).isSome) :
    (s.grant l t).ownerOf? m = if m = l then some t else s.ownerOf? m := by
  obtain ⟨k, hk⟩ := Option.isSome_iff_exists.mp hl
  rw [ownerOf?, lock?_grant, ownerOf?]
  split
  · next hml => simp [hml, hk]
  · cases s.lock? m <;> simp [*]

/-- A lock that is handed over belongs to the thread. -/
lemma ownerOf?_handOver (hl : (s.lock? l).isSome) :
    (s.handOver l t).ownerOf? m = if m = l then some t else s.ownerOf? m := by
  obtain ⟨k, hk⟩ := Option.isSome_iff_exists.mp hl
  rw [ownerOf?, lock?_handOver, ownerOf?]
  split
  · next hml => simp [hml, hk]
  · cases s.lock? m <;> simp [*]

/-- What others do makes a thread the owner of a lock only if it waits for it. -/
lemma Calm.ownerOf? (h : Calm s s' u) (howner : s'.ownerOf? m = some u) :
    s.ownerOf? m = some u ∨ s.linkOf? u = some m := by
  obtain ⟨k', hk', howner⟩ := ownerOf?_eq_some_iff.mp howner
  exact (h.owner m k' hk' howner).imp_left ownerOf?_eq_some_iff.mpr

/-- Nobody retires in a change of somebody else. -/
lemma Calm.hasTerminated (h : Calm s s' u) :
    s'.hasTerminated u = true → s.hasTerminated u = true :=
  h.flag rfl fun _ _ hc => hc.terminated

/-- A thread becomes the owner of a lock only if it waits for it or takes the next step. -/
lemma Change.owner_cases {w : Option ThreadId} (hc : Change s w s') (hs : Sound s)
    (howner : s'.ownerOf? m = some t) : s.ownerOf? m = some t ∨ s.linkOf? t = some m ∨
      ∃ slot, s.primaries[slot]? = some t ∧ s.live.order.head? = some slot := by
  by_cases hw : w = some t
  · subst hw
    have hcalm : ∀ {s'}, Change s none s' → s'.ownerOf? m = some t →
        s.ownerOf? m = some t ∨ s.linkOf? t = some m ∨
          ∃ slot, s.primaries[slot]? = some t ∧ s.live.order.head? = some slot :=
      fun hc howner => ((hc.calm hs (by simp)).ownerOf? howner).imp_right .inl
    cases hc with
    | stay => exact hcalm .stay howner
    | finish | awaitTurn => exact .inl howner
    | turn _ slot hslot hhead | grant _ slot _ _ hslot hhead | enqueue _ slot _ _ hslot hhead
    | stage _ slot _ _ _ hslot hhead => exact .inr (.inr ⟨slot, hslot, hhead⟩)
    | retire _ slot => exact .inl ((ownerOf?_afterRetirement slot).symm.trans howner)
    | bootstrap hround => exact hcalm (.bootstrap hround) howner
    | next hround hfull hstuck => exact hcalm (.next hround hfull hstuck) howner
    | choose u hround hlen halive hnew => exact hcalm (.choose u hround hlen halive hnew) howner
    | start order hround hfull => exact hcalm (.start order hround hfull) howner
    | unlink u l hlink => exact hcalm (.unlink u l hlink) howner
    | forget u l hlink => exact hcalm (.forget u l hlink) howner
    | release u l k hk hu hqueue => exact hcalm (.release u l k hk hu hqueue) howner
    | handOver u l k next rest hk hu hqueue =>
      exact hcalm (.handOver u l k next rest hk hu hqueue) howner
    | newLock => exact hcalm .newLock howner
    | dropLock l hl hunused => exact hcalm (.dropLock l hl hunused) howner
  · exact ((hc.calm hs hw).ownerOf? howner).imp_right .inl

/-- The owner of a lock does not wait for it. -/
lemma Sound.not_linked_of_owner (h : Sound s) (howner : s.ownerOf? l = some t) :
    s.linkOf? t ≠ some l := by
  obtain ⟨k, hk, howner⟩ := ownerOf?_eq_some_iff.mp howner
  intro hlink
  obtain ⟨k', hk', hqueue⟩ := (h.queues.linked t l).mp hlink
  cases hk.symm.trans hk'
  exact h.queues.not_queued l k t hk howner hqueue

/-- Whoever has the next step did not retire. -/
lemma Sound.not_terminated_of_head (h : Sound s) {slot : Slot} (hslot : s.primaries[slot]? = some t)
    (hhead : s.live.order.head? = some slot) : s.hasTerminated t = false := by
  obtain ⟨r, hr, -⟩ := h.seating.primary_of_slot hslot
  cases hterminated : r.terminated with
  | false => simp [hasTerminated, hr, hterminated]
  | true =>
    have hout := (h.seating.truthful t r hr).terminated slot hslot hterminated
    exact absurd (List.mem_of_mem_head? hhead) hout

end State

/-! ### Operations and what their callers own -/

/-- Whether the caller of an operation may own the lock `m` inside it: whoever asks for a lock owns
no other one, and whoever retires owns none. -/
def Operation.spares (m : LockId) : Operation → Bool
  | lock l => l = m
  | retire => false
  | _ => true

/-- The thread that has to own nothing for a move to be careful: it asks for a lock, or it ends. -/
def Move.claimant? : Move → Option ThreadId
  | call (.unit t) (.lock _) | call (.unit t) .retire => some t
  | _ => none

namespace System

/-- Whether nobody asks for a lock while it owns one, and nobody ends while it owns one. -/
def Careful (sys : System) (m : Move) : Prop :=
  ∀ t, m.claimant? = some t → sys.state.OwnsNothing t

/-- A move changes the operation of the agent that makes it only. -/
lemma operation?_apply (sys : System) (a : Agent) (op : Operation) (o : Outcome) (t : ThreadId) :
    (sys.apply a op o).operation? t =
      if .unit t = a then (o.call? (sys.calls.get? a) op).map Call.operation
      else sys.operation? t := by
  rw [operation?, get?_calls_apply]
  split <;> rfl

end System

section Stretch

variable {eligible : ThreadId → Bool} {s s' : State} {me t : ThreadId} {ph : Phase} {o : Outcome}
  {point : Point} {m : LockId}

/-- Nobody gets a lock while its operation goes on. -/
lemma Stretch.ownerOf?_goto (ho : Stretch eligible s me ph (.goto s' point)) :
    s'.ownerOf? m = s.ownerOf? m := by
  cases ho with
  | queued l k slot => exact ownerOf?_enqueue.trans (ownerOf?_afterTurn slot)
  | bootstrap | bootstrapRetirement => exact ownerOf?_beginRound
  | closed => exact ownerOf?_nextRound
  | retired slot => exact ownerOf?_afterRetirement slot
  | _ => rfl

/-- Only a thread at the place for it retires. -/
lemma Stretch.hasTerminated_cases (ho : Stretch eligible s me ph o) (hs : s.Sound)
    (ht : (o.state s).hasTerminated t = true) :
    s.hasTerminated t = true ∨ ph = .awaitRetirement ∧ t = me := by
  have hturn : ∀ slot, (s.afterTurn me slot).hasTerminated t = true → s.hasTerminated t = true :=
    fun slot ht => (hasTerminated_afterTurn slot).symm.trans ht
  cases ho with
  | bootstrap p hround | bootstrapRetirement hround =>
    have hcleared := hs.seating.cleared_of_unbegun hround
    cases (hcleared.hasTerminated_beginRound hs.roster).symm.trans ht
  | closed k hfull hstuck =>
    have hcleared := hs.seating.closeRound_cleared hs.roster
    cases (hcleared.hasTerminated_beginRound hs.roster.closeRound).symm.trans ht
  | finished => exact .inl ((hasTerminated_of_map record?_finish fun _ => rfl).symm.trans ht)
  | notNext => exact .inl ((hasTerminated_of_map record?_awaitTurn fun _ => rfl).symm.trans ht)
  | turn slot | granted _ _ slot | staged _ slot | refused _ slot | overflowed _ slot =>
    exact .inl (hturn slot ht)
  | queued l k slot =>
    exact .inl (hturn slot ((hasTerminated_of_map record?_enqueue fun _ => rfl).symm.trans ht))
  | chosen => exact .inl ((hasTerminated_of_map record?_choose fun _ => rfl).symm.trans ht)
  | retired slot hslot =>
    obtain ⟨r, hr, -⟩ := hs.seating.primary_of_slot hslot
    rw [Outcome.state, hasTerminated_afterRetirement (by simp [hr])] at ht
    split at ht
    · next heq => exact .inr ⟨rfl, heq⟩
    · exact .inl ht
  | _ => exact .inl ht

end Stretch

/-- Whoever retires is inside the operation for it, and nobody gets a lock meanwhile. -/
lemma Invariant.hasTerminated_cases {sys sys' : System} (h : Invariant sys)
    {eligible : ThreadId → Bool} {m : Move} (hm : sys.move? eligible m = some sys') {t : ThreadId}
    (ht : sys'.state.hasTerminated t = true) :
    sys.state.hasTerminated t = true ∨ sys.operation? t = some .retire ∧
      ∀ l, sys'.state.ownerOf? l = sys.state.ownerOf? l := by
  cases h.transition hm with
  | call a op o hinside hidle halive hlocks ho =>
    rw [System.state_apply] at ht
    exact .inl (((ho.change (w := none)).calm h.sound (by simp)).hasTerminated ht)
  | stretch u op ph o hinside hcall hop ho =>
    rw [System.state_apply] at ht ⊢
    rcases ho.hasTerminated_cases h.sound ht with ht | ⟨rfl, rfl⟩
    · exact .inl ht
    · refine .inr ⟨by rw [System.operation?, hcall, hop]; rfl, fun l => ?_⟩
      cases ho with
      | sleepForRetirement => rfl
      | retired slot => exact ownerOf?_afterRetirement slot
  | intake a op p o hinside hcall ho =>
    rw [System.state_apply] at ht
    rcases h.intake_arrival hcall ho with heq | harrival
    · exact .inl (heq ▸ ht)
    · exact .inl ((harrival.hasTerminated_eq h.sound).symm.trans ht)
  | enter => exact .inl ht
  | newLock =>
    exact .inl (((Change.newLock (w := none)).calm h.sound (by simp)).hasTerminated ht)
  | dropLock l hinside hl hunused =>
    have hc : Change sys.state none (sys.state.dropLock l) := .dropLock l hl (h.unlinked hunused)
    exact .inl ((hc.calm h.sound (by simp)).hasTerminated ht)

/-! ### The invariant -/

/-- Owners of locks do not wait for locks, and they are in front of the list. -/
structure Orderly (sys : System) : Prop where
  /-- Whoever asks for a lock owns no other one, and whoever retires owns none. -/
  spared : ∀ t op m, sys.operation? t = some op → sys.state.ownerOf? m = some t →
    op.spares m = true
  /-- Owners did not retire. -/
  alive : ∀ t m, sys.state.ownerOf? m = some t → sys.state.hasTerminated t = false
  /-- So many threads from the front are primaries, once the round is filled. -/
  front : ∀ t m, sys.state.ownerOf? m = some t →
    t ∈ sys.state.threadList.take sys.state.live.primaries
  /-- The next round has no fewer primaries. -/
  growing : sys.state.live.primaries ≤ sys.state.staged.primaries

namespace Orderly

variable {sys sys' : System} {eligible : ThreadId → Bool} {m : Move} {a : Agent} {t : ThreadId}
  {l : LockId}

/-- Whoever is in the queue of a lock owns nothing. -/
lemma ownsNothing_of_linked (h : Orderly sys) (hinv : Invariant sys)
    (hlink : sys.state.linkOf? t = some l) : sys.state.OwnsNothing t := by
  intro m howner
  obtain ⟨ph, hcall⟩ := hinv.call_of_linked hlink
  have hop : sys.operation? t = some (.lock l) := by rw [System.operation?, hcall]; rfl
  have hsame : l = m := by simpa [Operation.spares] using h.spared t _ m hop howner
  exact hinv.sound.not_linked_of_owner howner (hsame ▸ hlink)

/-- What is calm for a thread keeps its operation as it has to be. -/
lemma spared_of_calm (h : Orderly sys) (hinv : Invariant sys) {s' : State} {op : Operation}
    (hcalm : Calm sys.state s' t) (hop : sys.operation? t = some op)
    (howner : s'.ownerOf? l = some t) : op.spares l = true := by
  rcases hcalm.ownerOf? howner with howner | hlink
  · exact h.spared t op l hop howner
  · obtain ⟨ph, hcall⟩ := hinv.call_of_linked hlink
    rw [System.operation?, hcall] at hop
    cases hop
    simp [Operation.spares]

/-- What an agent does keeps the operations of owners as they have to be, if it does so for its
own one. -/
lemma spared_apply (h : Orderly sys) (hinv : Invariant sys) {op : Operation} {o : Outcome}
    (hcalm : ∀ t, a ≠ .unit t → Calm sys.state (o.state sys.state) t)
    (hown : ∀ t op' l, a = .unit t → (o.call? (sys.calls.get? a) op).map Call.operation = some op' →
      (o.state sys.state).ownerOf? l = some t → op'.spares l = true) (t : ThreadId)
    (op' : Operation) (l : LockId) (hop : (sys.apply a op o).operation? t = some op')
    (howner : (sys.apply a op o).state.ownerOf? l = some t) : op'.spares l = true := by
  rw [System.state_apply] at howner
  rw [System.operation?_apply] at hop
  split at hop
  · next hta => exact hown t op' l hta.symm hop howner
  · next hta => exact h.spared_of_calm hinv (hcalm t (Ne.symm hta)) hop howner

/-- Careful moves keep the operations of owners as they have to be. -/
lemma spared_move (h : Orderly sys) (hinv : Invariant sys) (hcareful : sys.Careful m)
    (hm : sys.move? eligible m = some sys') :
    ∀ t op l, sys'.operation? t = some op → sys'.state.ownerOf? l = some t →
      op.spares l = true := by
  cases hinv.transition hm with
  | call a op o hinside hidle halive hlocks ho =>
    refine h.spared_apply hinv (fun t _ => (ho.change (w := none)).calm hinv.sound (by simp))
      fun t op' l hta hop howner => ?_
    subst hta
    cases ho with
    | submit | fill | turn | reconfigure =>
      cases hop
      rfl
    | lock | retire => exact absurd howner (hcareful t rfl l)
    | owner | unlinked | forgotten | relock | notOwner | released | handedOver => cases hop
  | stretch t op ph o hinside hcall hop ho =>
    have hc := hinv.stretch_change hcall hop ho
    refine h.spared_apply hinv (fun u hu => hc.calm hinv.sound (by simpa using hu))
      fun u op' l htu hop' howner => ?_
    cases htu
    have hbefore : sys.operation? t = some op := by rw [System.operation?, hcall]; rfl
    cases o with
    | sleep =>
      rw [Outcome.call?, hcall] at hop'
      cases hop'
      exact h.spared t op l hbefore howner
    | goto s' p =>
      cases hop'
      exact h.spared t op l hbefore (ho.ownerOf?_goto.symm.trans howner)
    | pause s' p => cases ho
    | reply s' r => cases hop'
  | intake a op p o hinside hcall ho =>
    refine h.spared_apply hinv (fun t _ => ?_) fun t op' l hta hop howner => ?_
    · rcases hinv.intake_arrival hcall ho with heq | harrival
      · exact heq.symm ▸ (Change.stay (w := none)).calm hinv.sound (by simp)
      · exact harrival.calm hinv.sound
    · subst hta
      have hbefore : sys.operation? t = some op := by rw [System.operation?, hcall]; rfl
      have hsame : op' = op := by
        cases o with
        | sleep =>
          rw [Outcome.call?, hcall] at hop
          cases hop
          rfl
        | goto s' p | pause s' p =>
          cases hop
          rfl
        | reply s' r => cases hop
      exact hsame ▸ h.spared t op l hbefore ((ownerOf?_congr (ho.lock?_eq l)).symm.trans howner)
  | enter a call => exact h.spared
  | newLock =>
    have hc : Change sys.state none sys.state.registerLock := .newLock
    exact fun t op l => h.spared_of_calm hinv (hc.calm hinv.sound (by simp))
  | dropLock l hinside hl hunused =>
    have hc : Change sys.state none (sys.state.dropLock l) :=
      .dropLock l hl (hinv.unlinked hunused)
    exact fun t op l => h.spared_of_calm hinv (hc.calm hinv.sound (by simp))

/-- If everybody may become a primary, the primaries are the first threads of the list. -/
lemma primaries_eq_take (hformed : Formed eligible sys) (heligible : ∀ t, eligible t = true) :
    sys.state.primaries = sys.state.threadList.take sys.state.primaries.length := by
  have hfront := hformed.front
  rw [List.filter_eq_self.mpr fun t _ => heligible t] at hfront
  exact List.prefix_iff_eq_take.mp hfront

/-- Whoever owns a lock after a careful move did not retire before, and is in front of the list. -/
lemma owner_move (h : Orderly sys) (hinv : Invariant sys) (hformed : Formed eligible sys)
    (heligible : ∀ t, eligible t = true) (hm : sys.move? eligible m = some sys')
    (howner : sys'.state.ownerOf? l = some t) :
    sys.state.hasTerminated t = false ∧
      t ∈ sys.state.threadList.take sys.state.live.primaries := by
  have hprimary : t ∈ sys.state.primaries →
      t ∈ sys.state.threadList.take sys.state.live.primaries := fun ht => by
    rw [primaries_eq_take hformed heligible] at ht
    exact List.take_subset_take_left _ hinv.sound.seating.length_le ht
  have hlinked : sys.state.linkOf? t = some l → sys.state.hasTerminated t = false := fun hlink => by
    obtain ⟨ph, hcall⟩ := hinv.call_of_linked hlink
    obtain ⟨-, hop, -, halive, -⟩ := (hcall ▸ hinv.placed (.unit t)).of_thread
    refine hasTerminated_of_isAlive (halive (Bool.eq_false_iff.mpr fun hleaving => ?_))
    cases hop.trans (Phase.operation_of_leaving hleaving)
  rcases hinv.effect ⟨eligible, m, hm⟩ with ⟨w, hchange⟩ | harrival
  · rcases hchange.owner_cases hinv.sound howner with howner | hlink | ⟨slot, hslot, hhead⟩
    · exact ⟨h.alive t l howner, h.front t l howner⟩
    · exact ⟨hlinked hlink, hprimary (hinv.sound.seating.mem_primaries_of_linked hlink)⟩
    · exact ⟨hinv.sound.not_terminated_of_head hslot hhead,
        hprimary (List.mem_of_getElem? hslot)⟩
  · rcases (harrival.calm hinv.sound).ownerOf? howner with howner | hlink
    · exact ⟨h.alive t l howner, h.front t l howner⟩
    · exact ⟨hlinked hlink, hprimary (hinv.sound.seating.mem_primaries_of_linked hlink)⟩

/-- Careful moves keep owners in front and waiting for nothing, as long as no move lowers the number
of primaries to come. -/
theorem step (h : Orderly sys) (hinv : Invariant sys) (hformed : Formed eligible sys)
    (heligible : ∀ t, eligible t = true) (hcareful : sys.Careful m)
    (hm : sys.move? eligible m = some sys')
    (hstaged : sys.state.staged.primaries ≤ sys'.state.staged.primaries) : Orderly sys' := by
  have hspared := h.spared_move hinv hcareful hm
  have hbefore := fun t l => h.owner_move hinv hformed heligible hm (t := t) (l := l)
  refine ⟨hspared, fun t l howner => ?_, fun t l howner => ?_, ?_⟩
  · refine Bool.eq_false_iff.mpr fun hterminated => ?_
    rcases hinv.hasTerminated_cases hm hterminated with hbefore' | ⟨hop, howners⟩
    · simp [(hbefore t l howner).1] at hbefore'
    · exact absurd (h.spared t _ l hop ((howners l).symm.trans howner)) (by simp [Operation.spares])
  · obtain ⟨hterminated, hfront⟩ := hbefore t l howner
    rcases hinv.effect ⟨eligible, m, hm⟩ with ⟨w, hchange⟩ | harrival
    · rcases hchange.threadList_eq hinv.sound with ⟨hround, hlist⟩ | ⟨hround, hlist⟩
      · cases hchange.gate hinv.sound with
        | keep _ _ _ hlive => rwa [hlist, hlive]
        | begin hnext | letThrough hnext => omega
      · rcases hchange.round_eq with hsame | ⟨-, -, hlive, -⟩
        · omega
        · rw [hlist, hlive]
          exact List.take_subset_take_left _ h.growing
            (mem_take_filter hfront (by simp [hterminated]))
    · rw [harrival.settled.live]
      exact mem_take_of_prefix harrival.settled.threadList hfront
  · rcases hinv.effect ⟨eligible, m, hm⟩ with ⟨w, hchange⟩ | harrival
    · cases hchange.gate hinv.sound with
      | keep _ _ _ hlive => exact hlive ▸ Nat.le_trans h.growing hstaged
      | begin _ _ _ hlive | letThrough _ _ _ hlive => exact hlive ▸ hstaged
    · rw [harrival.settled.live]
      exact Nat.le_trans h.growing hstaged

/-- Nobody owns a lock in the beginning. -/
lemma of_unowned (howner : ∀ l, sys.state.ownerOf? l = none)
    (hgrowing : sys.state.live.primaries ≤ sys.state.staged.primaries) : Orderly sys where
  spared t op l _ hl := by cases (howner l).symm.trans hl
  alive t l hl := by cases (howner l).symm.trans hl
  front t l hl := by cases (howner l).symm.trans hl
  growing := hgrowing

/-- In a round that is filled every owner is a primary. -/
lemma mem_primaries_of_owner (h : Orderly sys) (hformed : Formed eligible sys)
    (heligible : ∀ t, eligible t = true)
    (hfull : sys.state.live.primaries ≤ sys.state.primaries.length)
    (howner : sys.state.ownerOf? l = some t) : t ∈ sys.state.primaries := by
  rw [primaries_eq_take hformed heligible]
  exact List.take_subset_take_left _ hfull (h.front t l howner)

end Orderly

end RoundScheduler
