import RoundScheduler.Proofs.State.Turnover
import RoundScheduler.Proofs.TurnOrder

/-!
# Rounds are formed from the front of the list

Whoever fills a round goes through the list by index and sleeps where it ends. Meanwhile threads
join the list, and primaries that were chosen already take turns and retire. All the same the index
keeps its meaning, because only the start of a round takes threads from the list: the primaries are
always what the rule of eligibility accepts of the part of the list that was seen. From this follows
who belongs to a round, as long as the rule stays the same.
-/

namespace RoundScheduler

open State

/-- The thread that an event is about, unless it is about the round. -/
def Event.actor? : Event → Option ThreadId
  | turn _ thread _ | lockAcquired _ _ thread _ | terminated _ thread => some thread
  | _ => none

namespace State

variable {s s' : State} {t : ThreadId} {eligible : ThreadId → Bool} {w : Option ThreadId}

/-! ### What a change records -/

/-- A change records acts of primaries, requests, and the start of the round once it is filled. -/
lemma Change.event_cases (hc : Change s w s') (hs : Sound s) {e : Event} (he : e ∈ s'.events) :
    e ∈ s.events ∨ (∃ t ∈ s.primaries, e.actor? = some t) ∨
      (∃ n steps, e = .reconfigured s.round n steps) ∨
      ∃ order, e = .roundStarted s.round s.primaries order ∧
        s.live.primaries ≤ s.primaries.length ∧ s'.primaries = s.primaries := by
  have hsplit : ∀ {new : List Event}, s'.events = s.events ++ new → e ∈ s.events ∨ e ∈ new :=
    fun hevents => List.mem_append.mp (hevents ▸ he)
  have hacts : ∀ {new : List Event} {t : ThreadId}, s'.events = s.events ++ new → t ∈ s.primaries →
      (∀ e ∈ new, e.actor? = some t) → e ∈ s.events ∨ ∃ t ∈ s.primaries, e.actor? = some t :=
    fun hevents ht hactor => (hsplit hevents).imp_right fun hnew => ⟨_, ht, hactor e hnew⟩
  cases hc with
  | turn t slot hslot | enqueue t slot _ _ hslot =>
    exact (hacts (events_afterTurn slot) (List.mem_of_getElem? hslot)
      (by simp [Event.actor?])).imp_right .inl
  | retire t slot hslot =>
    exact (hacts (events_afterRetirement slot) (List.mem_of_getElem? hslot)
      (by simp [Event.actor?])).imp_right .inl
  | grant t slot l k hslot =>
    exact (hacts (events_granted slot) (List.mem_of_getElem? hslot)
      (by simp [Event.actor?])).imp_right .inl
  | stage t slot n steps c hslot =>
    refine (hsplit (events_staged slot n steps c)).imp_right fun hnew => ?_
    rcases List.mem_cons.mp hnew with rfl | hnew
    · exact .inl ⟨t, List.mem_of_getElem? hslot, rfl⟩
    · exact .inr (.inl ⟨n, steps, List.mem_singleton.mp hnew⟩)
  | start order hround hfull =>
    exact (hsplit (events_recordStart order)).imp_right fun hnew =>
      .inr (.inr ⟨order, List.mem_singleton.mp hnew, hfull, rfl⟩)
  | handOver t l k next rest hk howner hqueue =>
    have hlink := hs.queues.linkOf?_of_head hk hqueue
    exact (hacts events_handOver (hs.seating.mem_primaries_of_linked hlink)
      (by simp [Event.actor?])).imp_right .inl
  | bootstrap => exact .inl (events_beginRound ▸ he)
  | next => exact .inl (events_nextRound ▸ he)
  | dropLock l hl => exact .inl (events_dropLock hl ▸ he)
  | _ => exact .inl he

/-! ### The front of the list -/

lemma mem_take_of_prefix {ts us : List ThreadId} {n : Nat} (h : ts <+: us) (ht : t ∈ ts.take n) :
    t ∈ us.take n := by
  obtain ⟨rest, rfl⟩ := h
  rw [List.take_append]
  exact List.mem_append_left _ ht

/-- Whoever is among the first of a list is among the first of any part of it. -/
lemma mem_take_filter {ts : List ThreadId} {n : Nat} {p : ThreadId → Bool} (ht : t ∈ ts.take n)
    (hp : p t = true) : t ∈ (ts.filter p).take n := by
  have hprefix : (ts.take n).filter p <+: ts.filter p := (List.take_prefix n ts).filter p
  have hlength : ((ts.take n).filter p).length ≤ n :=
    Nat.le_trans (List.length_filter_le _ _) (List.length_take_le n ts)
  have hmem : t ∈ (ts.take n).filter p := List.mem_filter.mpr ⟨ht, hp⟩
  rw [List.prefix_iff_eq_take.mp hprefix] at hmem
  exact List.take_subset_take_left _ hlength hmem

/-- If the primaries are at the front of what the rule accepts, nobody whom it accepts was left out
before one of them. -/
lemma mem_primaries_of_earlier (hroster : Roster s)
    (hfront : s.primaries <+: s.threadList.filter eligible) {i j : Nat} {u : ThreadId}
    (hij : i < j) (hu : s.threadList[i]? = some u) (ht : s.threadList[j]? = some t)
    (hprimary : t ∈ s.primaries) (heligible : eligible u = true) : u ∈ s.primaries := by
  obtain ⟨hi, hget⟩ := List.getElem?_eq_some_iff.mp hu
  obtain ⟨hj, hget'⟩ := List.getElem?_eq_some_iff.mp ht
  have hbefore : (s.threadList.take j).filter eligible <+: s.threadList.filter eligible :=
    (List.take_prefix j s.threadList).filter eligible
  rcases List.prefix_or_prefix_of_prefix hbefore hfront with hinner | houter
  · exact hinner.subset (List.mem_filter.mpr
      ⟨List.mem_take_iff_getElem.mpr ⟨i, by omega, hget⟩, heligible⟩)
  · -- Otherwise the later one stands at two places of the list.
    obtain ⟨i', hi', hget''⟩ :=
      List.mem_take_iff_getElem.mp (List.mem_filter.mp (houter.subset hprimary)).1
    have hsame : i' = j := (List.getElem_inj hroster.list_nodup).mp (hget''.trans hget'.symm)
    omega

/-! ### From one round to the next -/

/-- What the recorded starts of rounds say of each other and of the list, under a rule of
eligibility. -/
structure Succession (eligible : ThreadId → Bool) (s : State) : Prop where
  /-- Who was a primary of the round before and did not retire in it is at the front of the list. -/
  kept : ∀ k ps order, k + 1 = s.round → .roundStarted k ps order ∈ s.events → ∀ t ∈ ps,
    .terminated k t ∉ s.events → t ∈ (s.threadList.filter eligible).take ps.length
  /-- Who was a primary and did not retire is one again, unless there are fewer of them. -/
  again : ∀ k ps order ps' order', .roundStarted k ps order ∈ s.events →
    .roundStarted (k + 1) ps' order' ∈ s.events → ps.length ≤ ps'.length → ∀ t ∈ ps,
    .terminated k t ∉ s.events → t ∈ ps'

/-- Every change keeps it, as long as the primaries are at the front of what the rule accepts. -/
theorem Change.succession (hc : Change s w s') (hs : Sound s) (hchronicle : Chronicle s)
    (hregistered : Registered s) (hfront : s.primaries <+: s.threadList.filter eligible)
    (h : Succession eligible s) : Succession eligible s' := by
  obtain ⟨new, hevents, hnew⟩ := hc.exists_new
  have hkept := hc.events_subset
  have hold : ∀ {e}, e ∈ s'.events → e.round ≠ s.round → e ∈ s.events := fun he hne =>
    (List.mem_append.mp (hevents ▸ he)).resolve_right fun he => hne (hnew _ he)
  have htake := List.prefix_iff_eq_take.mp hfront
  constructor
  case kept =>
    intro k ps order hk hps t ht hterminated
    rcases hc.threadList_eq hs with ⟨hround, hlist⟩ | ⟨hround, hlist⟩
    · have hps' := hold hps (show k ≠ s.round by omega)
      rw [hlist]
      exact h.kept k ps order (by omega) hps' t ht (mt (@hkept _) hterminated)
    · -- The round that was left is the one whose primaries are looked at.
      obtain rfl : k = s.round := by omega
      have hps' : .roundStarted s.round ps order ∈ s.events := by
        rcases hc.round_eq with hsame | ⟨-, -, -, hsame⟩
        · omega
        · exact hsame ▸ hps
      obtain ⟨rfl, -⟩ := hchronicle.started ps order hps'
      have hflag : s.hasTerminated t = false :=
        Bool.eq_false_iff.mpr fun hflag => hterminated (hkept (hregistered t hflag))
      have hmem : t ∈ (s.threadList.filter eligible).take s.primaries.length := htake ▸ ht
      have hfilter : s'.threadList.filter eligible =
          (s.threadList.filter eligible).filter fun t => !s.hasTerminated t := by
        rw [hlist, List.filter_filter, List.filter_filter]
        exact List.filter_congr fun u _ => Bool.and_comm _ _
      rw [hfilter]
      exact mem_take_filter hmem (by simp [hflag])
  case again =>
    intro k ps order ps' order' hps hps' hlength t ht hterminated
    rcases hc.event_cases hs hps' with hpast | ⟨u, -, hu⟩ | ⟨n, steps, heq⟩ | ⟨o, heq, -⟩
    · have hle : k + 1 ≤ s.round := hchronicle.rounds _ hpast
      have hps := hold hps (show k ≠ s.round by omega)
      exact h.again k ps order ps' order' hps hpast hlength t ht (mt (@hkept _) hterminated)
    · cases hu
    · cases heq
    · obtain ⟨hk, rfl, -⟩ := Event.roundStarted.inj heq
      have hps := hold hps (show k ≠ s.round by omega)
      have hmem := h.kept k ps order hk hps t ht (mt (@hkept _) hterminated)
      rw [htake]
      exact List.take_subset_take_left _ hlength hmem

/-- Every arrival keeps it. -/
lemma Arrival.succession (ha : Arrival s s') (h : Succession eligible s) :
    Succession eligible s' := by
  have hround : s'.round = s.round := ha.settled.round
  constructor
  case kept =>
    rw [hround, ha.events_eq]
    intro k ps order hk hps t ht hterminated
    exact mem_take_of_prefix (ha.settled.threadList.filter eligible)
      (h.kept k ps order hk hps t ht hterminated)
  case again =>
    rw [ha.events_eq]
    exact h.again

end State

/-! ### Filling a round -/

/-- The primaries are at the front of what the rule of eligibility accepts, and whoever fills the
round has chosen all that it accepts of what it has seen. -/
structure Formed (eligible : ThreadId → Bool) (sys : System) : Prop where
  front : sys.state.primaries <+: sys.state.threadList.filter eligible
  filling : ∀ a index plan, sys.fill? a = some (index, plan) →
    sys.state.primaries = (sys.state.threadList.take index).filter eligible

namespace Formed

variable {eligible : ThreadId → Bool} {sys sys' : System}

/-- If there is one agent who fills the round, it decides what is chosen. -/
lemma of_single {a : Agent} {index : Nat} {plan : RoundConfig}
    (hfill : ∀ b, sys.fill? b = if b = a then some (index, plan) else none)
    (hchosen : sys.state.primaries = (sys.state.threadList.take index).filter eligible) :
    Formed eligible sys where
  front := by
    rw [hchosen]
    exact (List.take_prefix index _).filter eligible
  filling b index' plan' hb := by
    rw [hfill] at hb
    split at hb
    · cases hb
      exact hchosen
    · cases hb

/-- Threads that join the list do so at its end. -/
lemma settled (h : Formed eligible sys) (hinv : Invariant sys)
    (hsettled : Settled sys.state sys'.state) (hfill : ∀ a, sys'.fill? a = sys.fill? a) :
    Formed eligible sys' where
  front := by
    rw [hsettled.primaries]
    exact h.front.trans (hsettled.threadList.filter eligible)
  filling a index plan ha := by
    rw [hfill] at ha
    obtain ⟨rest, hrest⟩ := hsettled.threadList
    have hle := (hinv.fillers.filling a index plan ha).1.index_le
    rw [hsettled.primaries, ← hrest, List.take_append_of_le_length hle]
    exact h.filling a index plan ha

/-- Who was looked at in vain is rejected by the rule: nobody retires without having been a
primary. -/
lemma rejected (hinv : Invariant sys) {index : Nat} {plan : RoundConfig} {t : ThreadId}
    {r : ThreadRecord} (hfilling : sys.state.Filling index plan)
    (ht : sys.state.threadList[index]? = some t) (hr : sys.state.record? t = some r)
    (hskip : r.terminated = true ∨ eligible t = false) : eligible t = false := by
  refine hskip.resolve_left fun hterminated => ?_
  have hprimary := (hinv.sound.seating.truthful t r hr).primary (.inr (.inr (.inl hterminated)))
  exact hfilling.not_mem hinv.sound.roster ht
    ((hinv.sound.seating.primary_of_mem hr).mp hprimary)

/-- What the rule accepts of the part that was seen, once the next thread was seen too. -/
lemma filter_take_succ {ts : List ThreadId} {index : Nat} {t : ThreadId}
    (ht : ts[index]? = some t) : (ts.take (index + 1)).filter eligible =
      (ts.take index).filter eligible ++ [t].filter eligible := by
  rw [List.take_add_one, ht, List.filter_append]
  rfl

/-- Every move under the rule keeps the agreement. -/
theorem step (h : Formed eligible sys) (hinv : Invariant sys)
    (hs : System.StepUnder eligible sys sys') : Formed eligible sys' := by
  obtain ⟨m, hm⟩ := hs
  cases hinv.roundMove hm with
  | begins t hinside hover hbegun hnone hfill => exact .of_single hfill hbegun.primaries
  | fills index plan k ho hbefore hfilling hfill =>
    have hchosen := h.filling _ _ _ hbefore
    cases ho.stretch with
    | runOut => exact .of_single hfill hchosen
    | skipped _ _ _ u r hlen hu hr hskip =>
      have hrejected := rejected hinv hfilling hu hr hskip
      refine .of_single hfill ((hchosen.trans ?_).trans (filter_take_succ hu).symm)
      simp [hrejected]
    | chosen _ _ _ u r hlen hu hr hterminated heligible =>
      have hprimaries : (sys.state.choose u).primaries = sys.state.primaries ++ [u] := rfl
      refine .of_single hfill ((hprimaries.trans ?_).trans (filter_take_succ hu).symm)
      simp [hchosen, heligible]
    | filled => exact ⟨h.front, fun a _ _ ha => by simp [System.none_of_filled hfill a] at ha⟩
  | aside haside hfill => exact h.settled hinv haside.settled hfill

end Formed

/-! ### Runs under one rule of eligibility -/

/-- What one rule of eligibility does to all rounds of a run. -/
structure Selective (eligible : ThreadId → Bool) (sys : System) : Prop where
  formed : Formed eligible sys
  /-- Events are about threads that the rule accepts. -/
  accepted : ∀ e ∈ sys.state.events, ∀ t, e.actor? = some t → eligible t = true
  registered : Registered sys.state
  succession : Succession eligible sys.state

theorem Selective.of_reachable {c : Config} {eligible : ThreadId → Bool} {sys : System}
    (h : System.ReachableUnder c eligible sys) : Selective eligible sys := by
  obtain ⟨start, hstart, hpath⟩ := h
  induction hpath with
  | refl =>
    obtain ⟨rounds, -, rfl⟩ := Invariant.exists_rounds_of_initial hstart
    exact ⟨⟨List.nil_prefix, nofun⟩, nofun, nofun, nofun, nofun⟩
  | tail hpath hs ih =>
    have hrecorded := Recorded.of_reachable ⟨start, hstart, System.PathUnder.path hpath⟩
    have hinv := hrecorded.invariant
    refine ⟨ih.formed.step hinv hs, ?_, ?_, ?_⟩
    all_goals rcases hinv.effect hs.step with ⟨w, hchange⟩ | harrival
    · intro e he t ht
      rcases hchange.event_cases hinv.sound he with
        hold | ⟨u, hu, hactor⟩ | ⟨n, steps, rfl⟩ | ⟨order, rfl, -⟩
      · exact ih.accepted e hold t ht
      · cases ht.symm.trans hactor
        exact (List.mem_filter.mp (ih.formed.front.subset hu)).2
      · cases ht
      · cases ht
    · rw [harrival.events_eq]
      exact ih.accepted
    · exact hchange.registered hinv.sound ih.registered
    · exact harrival.registered hinv.sound ih.registered
    · exact hchange.succession hinv.sound hrecorded.chronicle ih.registered ih.formed.front
        ih.succession
    · exact harrival.succession ih.succession

namespace System

variable {c : Config} {sys next mid before after : System} {k : Nat} {t : ThreadId}

/-- Whoever left the list does not come back. -/
lemma Path.departed (h : Reachable c mid) (hp : Path mid sys) (ht : mid.state.Departed t) :
    sys.state.Departed t := by
  induction hp with
  | refl => exact ht
  | tail hp hs ih =>
    have hinv := Invariant.of_reachable (h.path hp)
    rcases hinv.effect hs with ⟨w, hchange⟩ | harrival
    · exact hchange.departed hinv.sound ih
    · exact harrival.departed hinv.sound ih

/-- During a round threads join the list at its end, and nobody leaves it. -/
lemma Path.threadList_prefix (h : Reachable c mid) (hp : Path mid sys)
    (hround : sys.state.round = mid.state.round) :
    mid.state.threadList <+: sys.state.threadList := by
  induction hp with
  | refl => exact List.prefix_rfl
  | @tail last sys hp hs ih =>
    have hinv := Invariant.of_reachable (h.path hp)
    have hle := (Path.exists_events h hp).1
    rcases hinv.effect hs with ⟨w, hchange⟩ | harrival
    · rcases hchange.threadList_eq hinv.sound with ⟨heq, hlist⟩ | ⟨heq, -⟩
      · exact hlist ▸ ih (heq ▸ hround)
      · omega
    · exact (ih (harrival.settled.round ▸ hround)).trans harrival.settled.threadList

/-- A round begins without those who retired before. -/
lemma BeginsRound.threadList_eq (h : BeginsRound c k before after) :
    after.state.threadList =
      before.state.threadList.filter fun t => !before.state.hasTerminated t := by
  have hinv := Invariant.of_reachable h.reachable
  have hbefore := h.round_before
  have hafter := h.round_after
  rcases hinv.effect h.step with ⟨w, hchange⟩ | harrival
  · rcases hchange.threadList_eq hinv.sound with ⟨heq, -⟩ | ⟨-, hlist⟩
    · omega
    · exact hlist
  · have hround := harrival.settled.round
    omega

/-- Nobody who retired before a round began is listed later. -/
lemma BeginsRound.not_terminated (h : BeginsRound c k before after) (hp : Path after sys)
    (ht : t ∈ sys.state.threadList) : before.state.hasTerminated t = false := by
  refine Bool.eq_false_iff.mpr fun hterminated => ?_
  have hinv := Invariant.of_reachable h.reachable
  have hburied : before.state.IsBuried t := by
    obtain ⟨r, hr, hflag⟩ := (Option.any_eq_true _ _).mp hterminated
    refine ⟨hinv.sound.roster.fresh t (by simp [started?, hr]), fun r' hr' => ?_⟩
    exact Option.some_inj.mp (hr.symm.trans hr') ▸ hflag
  have hafter : after.state.IsBuried t := by
    rcases hinv.effect h.step with ⟨w, hchange⟩ | harrival
    · exact hchange.isBuried hinv.sound hburied
    · exact harrival.isBuried hburied
  have hgone : t ∉ after.state.threadList := by
    rw [h.threadList_eq]
    simp [hterminated]
  exact (Path.departed (h.reachable.step h.step) hp ⟨hafter, hgone⟩).2 ht

/-- A move that records the start of a round names the primaries of the current one, which is
filled. -/
lemma started_of_step {ps : List ThreadId} {order : List Slot} (h : Reachable c sys)
    (hs : Step sys next) (hstart : .roundStarted k ps order ∈ next.state.events)
    (hnew : .roundStarted k ps order ∉ sys.state.events) :
    k = sys.state.round ∧ 1 ≤ k ∧ ps = sys.state.primaries ∧
      next.state.primaries = sys.state.primaries ∧
      sys.state.primaries.length = sys.state.live.primaries := by
  have hinv := Invariant.of_reachable h
  have hseating := hinv.sound.seating
  rcases hinv.effect hs with ⟨w, hchange⟩ | harrival
  · rcases hchange.event_cases hinv.sound hstart with hold | ⟨u, -, hu⟩ | ⟨_, _, heq⟩ |
      ⟨o, heq, hfull, hprimaries⟩
    · exact absurd hold hnew
    · cases hu
    · cases heq
    · obtain ⟨hk, hps, -⟩ := Event.roundStarted.inj heq
      refine ⟨hk, ?_, hps, hprimaries, Nat.le_antisymm hseating.length_le hfull⟩
      -- Before the first round there are no primaries, so none of the slots is filled.
      refine Nat.one_le_iff_ne_zero.mpr fun hzero => ?_
      have hnobody := hseating.unbegun (hk.symm.trans hzero)
      rw [hnobody] at hfull
      exact absurd hseating.positive (Nat.not_lt.mpr hfull)
  · exact absurd (harrival.events_eq ▸ hstart) hnew

end System

/-- Under one rule of eligibility, the primaries of a round that has been filled are the first
threads, in the order of the list, that had not retired when the round began and that the rule
accepts. So whoever was a primary and did not retire is one again unless there are fewer of them,
everything that is recorded of threads is about threads that the rule accepts, and at no time
anybody whom it accepts was left out before a primary. -/
theorem rounds_formed_from_front {c : Config} {eligible : ThreadId → Bool} {sys : System}
    (h : System.ReachableUnder c eligible sys) :
    (∀ next k ps order, System.StepUnder eligible sys next →
      .roundStarted k ps order ∈ next.state.events →
      .roundStarted k ps order ∉ sys.state.events →
      ps = next.state.primaries ∧ ps.length = sys.state.live.primaries ∧ ps.Nodup ∧
      (∃ before after, System.BeginsRound c k before after ∧ System.Path after sys) ∧
      ∀ before after, System.BeginsRound c k before after → System.Path after sys →
        (before.state.threadList.filter fun t => !before.state.hasTerminated t) <+:
          sys.state.threadList ∧
        ps = (sys.state.threadList.filter fun t =>
          !before.state.hasTerminated t && eligible t).take sys.state.live.primaries) ∧
    (∀ k ps order ps' order' t, .roundStarted k ps order ∈ sys.state.events →
      .roundStarted (k + 1) ps' order' ∈ sys.state.events → ps.length ≤ ps'.length → t ∈ ps →
      .terminated k t ∉ sys.state.events → t ∈ ps') ∧
    (∀ e ∈ sys.state.events, ∀ t, e.actor? = some t → eligible t = true) ∧
    ∀ (i j : Nat) t u, i < j → sys.state.threadList[i]? = some u →
      sys.state.threadList[j]? = some t → t ∈ sys.state.primaries → eligible u = true →
        u ∈ sys.state.primaries := by
  have hselective := Selective.of_reachable h
  have hinv := Invariant.of_reachable h.reachable
  refine ⟨fun next k ps order hs hstart hnew => ?_,
    fun k ps order ps' order' t hps hps' hlength ht =>
      hselective.succession.again k ps order ps' order' hps hps' hlength t ht,
    hselective.accepted, fun i j t u hij hu ht =>
      mem_primaries_of_earlier hinv.sound.roster hselective.formed.front hij hu ht⟩
  obtain ⟨rfl, hbegun, rfl, hprimaries, hlength⟩ :=
    System.started_of_step h.reachable hs.step hstart hnew
  refine ⟨hprimaries.symm, hlength, hinv.sound.seating.nodup,
    System.exists_beginsRound h.reachable hbegun (Nat.le_refl _),
    fun before after hbegins hpath => ⟨?_, ?_⟩⟩
  · rw [← hbegins.threadList_eq]
    exact System.Path.threadList_prefix (hbegins.reachable.step hbegins.step) hpath
      hbegins.round_after.symm
  · have hlist : (sys.state.threadList.filter fun t =>
        !before.state.hasTerminated t && eligible t) = sys.state.threadList.filter eligible :=
      List.filter_congr fun t ht => by simp [hbegins.not_terminated hpath ht]
    rw [hlist, ← hlength]
    exact List.prefix_iff_eq_take.mp hselective.formed.front

/-! ### A thread that is passed over -/

/-- The moves by which the second of two threads, which the rule rejects, fills the first round and
sleeps for want of a third one, while the first one takes its turn and retires; then the third one
comes and is chosen. -/
def fillAroundRejected : List Move :=
  [.call (.client 0) (.submit .noop), .advance, .advance,
    .call (.client 0) (.submit .noop), .advance, .advance,
    .call (.unit ⟨1⟩) .turn, .advance, .advance, .advance, .advance,
    .call (.unit ⟨0⟩) .turn, .advance, .advance,
    .call (.unit ⟨0⟩) .retire, .advance, .advance, .advance,
    .call (.client 0) (.submit .noop), .advance, .advance,
    .enter (.unit ⟨1⟩), .advance]

/-- The first round has the first thread, though it retired meanwhile, and the third one. -/
theorem rounds_formed_from_front_fillAroundRejected :
    ∃ sys next, System.run? twoStepConfig (· ≠ ⟨1⟩) fillAroundRejected = some sys ∧
      System.StepUnder (· ≠ ⟨1⟩) sys next ∧ sys.state.threadList = [⟨0⟩, ⟨1⟩, ⟨2⟩] ∧
      sys.state.events = [.turn 1 ⟨0⟩ 0, .terminated 1 ⟨0⟩] ∧
      next.state.primaries = [⟨0⟩, ⟨2⟩] ∧
      (∃ before after, System.BeginsRound twoStepConfig 1 before after ∧ System.Path after sys ∧
        [⟨0⟩, ⟨2⟩] = (sys.state.threadList.filter fun t =>
          !before.state.hasTerminated t && decide (t ≠ ⟨1⟩)).take 2) ∧
      ∀ e ∈ sys.state.events, ∀ t, e.actor? = some t → decide (t ≠ ⟨1⟩) = true := by
  obtain ⟨sys, next, hsys, hmove, hlist, hevents, hlive, hevents'⟩ : ∃ sys next,
      System.run? twoStepConfig (· ≠ ⟨1⟩) fillAroundRejected = some sys ∧
      sys.move? (· ≠ ⟨1⟩) .advance = some next ∧ sys.state.threadList = [⟨0⟩, ⟨1⟩, ⟨2⟩] ∧
      sys.state.events = [.turn 1 ⟨0⟩ 0, .terminated 1 ⟨0⟩] ∧ sys.state.live.primaries = 2 ∧
      next.state.events = [.turn 1 ⟨0⟩ 0, .terminated 1 ⟨0⟩,
        .roundStarted 1 [⟨0⟩, ⟨2⟩] [0, 1, 0, 1]] := ⟨_, _, rfl, rfl, rfl, rfl, rfl, rfl⟩
  have hs : System.StepUnder (· ≠ ⟨1⟩) sys next := ⟨_, hmove⟩
  obtain ⟨hformed, -, haccepted, -⟩ :=
    rounds_formed_from_front (System.reachableUnder_of_run? hsys)
  obtain ⟨hprimaries, -, -, ⟨before, after, hbegins, hpath⟩, hfront⟩ :=
    hformed next 1 [⟨0⟩, ⟨2⟩] [0, 1, 0, 1] hs (by simp [hevents']) (by simp [hevents])
  exact ⟨sys, next, hsys, hs, hlist, hevents, hprimaries.symm,
    ⟨before, after, hbegins, hpath, hlive ▸ (hfront before after hbegins hpath).2⟩, haccepted⟩

end RoundScheduler
