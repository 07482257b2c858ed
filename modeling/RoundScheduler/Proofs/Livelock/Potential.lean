import Mathlib.Algebra.Group.Action.Defs
import RoundScheduler.Proofs.Livelock.Rounds

/-!
# How much can still happen

A run under the discipline comes to an end, and this is measured on several scales, each of which
counts only while the ones before it stand still. What is due and the rounds that may still begin
come first. While nothing is completed, threads wait for more and more: for the end of the round,
for their turn, for a lock. While nobody waits for more, threads and submitters come nearer to the
next place where something is completed or waited for. In the end it counts who is inside the
critical section. Only those who wake up in vain add to the potential that is made of this.
-/

namespace RoundScheduler

open State

/-! ### Who falls asleep -/

/-- Whoever may fall asleep at a place can do nothing else there. -/
lemma Stretch.eq_sleep {eligible : ThreadId → Bool} {s : State} {me : ThreadId} {ph : Phase}
    {o : Outcome} (h : Stretch eligible s me ph .sleep) (ho : Stretch eligible s me ph o) :
    o = .sleep := by
  cases h with
  | sleepForSeat p hme =>
    cases ho with
    | sleepForSeat => rfl
    | finished _ slot hslot | notNext _ slot hslot | turn slot hslot | granted _ _ slot hslot
    | queued _ _ slot hslot | staged _ slot _ hslot | refused _ slot _ hslot
    | overflowed _ slot _ hslot => exact absurd (List.mem_of_getElem? hslot) hme
  | sleepForEnd p r hr hfinished =>
    cases ho with
    | sleepForEnd => rfl
    | ended _ r' hr' hfinished' =>
      cases hr.symm.trans hr'
      cases hfinished.symm.trans hfinished'
  | sleepForTurn p r hr hwaiting =>
    cases ho with
    | sleepForTurn => rfl
    | woken _ r' hr' hwaiting' =>
      cases hr.symm.trans hr'
      cases hwaiting.symm.trans hwaiting'
  | sleepInQueue l k r hk howner hr hqueued =>
    cases ho with
    | sleepInQueue => rfl
    | handed _ k' hk' howner' =>
      cases hk.symm.trans hk'
      exact absurd howner' howner
    | retry _ k' r' hk' howner' hr' hqueued' =>
      cases hr.symm.trans hr'
      simp [hqueued'] at hqueued
  | runOut index plan k hlen hindex =>
    cases ho with
    | runOut => rfl
    | skipped _ _ _ u _ _ hu | chosen _ _ _ u _ _ hu =>
      simp [List.getElem?_eq_none hindex] at hu
    | filled _ _ _ hfilled => exact absurd hlen (Nat.not_lt_of_le hfilled)
  | sleepForRetirement hme =>
    cases ho with
    | sleepForRetirement => rfl
    | retired slot hslot => exact absurd (List.mem_of_getElem? hslot) hme

/-- Whoever may fall asleep while submitting can do nothing else there. -/
lemma Intake.eq_sleep {c : Config} {s : State} {p : Submission} {o : Outcome}
    (h : Intake c s p .sleep) (ho : Intake c s p o) : o = .sleep := by
  cases h with
  | sleepForAdmission t work k r hr hadmitted =>
    cases ho with
    | sleepForAdmission => rfl
    | admitted _ _ _ r' hr' hadmitted' =>
      cases hr.symm.trans hr'
      cases hadmitted.symm.trans hadmitted'

namespace System

/-- Somebody entered the critical section only to go on sleeping. -/
def wakesInVain (eligible : ThreadId → Bool) (sys sys' : System) : Bool :=
  sys.inside.isNone && sys'.inside.any fun a =>
    (sys.calls.get? a).isSome && !sys.canProceed eligible a

/-- What still happens because of whoever is inside the critical section. -/
def unrest (eligible : ThreadId → Bool) (sys : System) : Nat :=
  match sys.inside with
  | none => 1
  | some a => if sys.canProceed eligible a then 0 else 2

/-- The unrest is bounded. -/
lemma unrest_le (eligible : ThreadId → Bool) (sys : System) : sys.unrest eligible ≤ 2 := by
  unfold unrest
  split
  · exact Nat.le_succ 1
  · split <;> omega

end System

/-- A thread at a place where it may fall asleep does not get further. -/
lemma Invariant.canProceed_of_stretch {eligible : ThreadId → Bool} {sys : System} {t : ThreadId}
    {ph : Phase} (h : Invariant sys)
    (hcall : sys.calls.get? (.unit t) = some ⟨ph.operation, .thread t ph⟩)
    (ho : Stretch eligible sys.state t ph .sleep) :
    sys.canProceed eligible (.unit t) = false := by
  obtain ⟨-, -, -, halive, hlocks⟩ := (hcall ▸ h.placed (.unit t)).of_thread
  have hme : ph.leaving = false → (sys.state.record? t).isSome := fun hph => by
    obtain ⟨r, hr, -⟩ := exists_record_of_isAlive (halive hph)
    simp [hr]
  have hsleep : sys.outcome eligible ⟨ph.operation, .thread t ph⟩ = .sleep :=
    ho.eq_sleep (Phase.stretch_step h.sound hme hlocks)
  simp [System.canProceed, hcall, hsleep, Outcome.isSleep]

/-- A submitter at a place where it may fall asleep does not get further. -/
lemma Invariant.canProceed_of_intake {eligible : ThreadId → Bool} {sys : System} {a : Agent}
    {op : Operation} {p : Submission} (h : Invariant sys)
    (hcall : sys.calls.get? a = some ⟨op, .submission p⟩)
    (ho : Intake sys.config sys.state p .sleep) : sys.canProceed eligible a = false := by
  have hp : ∀ t, p.thread? = some t → (sys.state.record? t).isSome := fun t =>
    h.isSome_of_submission (Submitters.submission?_of_call hcall)
  have hsleep : sys.outcome eligible ⟨op, .submission p⟩ = .sleep :=
    ho.eq_sleep (Submission.intake_step h.sound hp)
  simp [System.canProceed, hcall, hsleep, Outcome.isSleep]

/-! ### What threads do not wait for yet -/

/-- How much a thread does not wait for: a lock, which is more than the turn that may pass to
somebody else by waiting for it, its turn, and the end of the round. -/
def ThreadRecord.leeway (r : ThreadRecord) : Nat :=
  (if r.enqueued.isSome then 0 else 2) + (if r.waitingForTurn then 0 else 1) +
    if r.finished then 0 else 1

namespace State

variable {s s' : State} {t u : ThreadId} {n : Nat}

/-- How much a thread does not wait for; one without a record waits for nothing. -/
def leeway (s : State) (t : ThreadId) : Nat :=
  (s.record? t).elim 4 ThreadRecord.leeway

/-- How much some threads do not wait for. -/
def leeways (s : State) (n : Nat) : Nat := ∑ t ∈ Finset.range n, s.leeway ⟨t⟩

/-- A change that leaves the leeway of records leaves that of threads. -/
lemma leeway_of_map {f : ThreadRecord → ThreadRecord} (hrecord : s'.record? t = (s.record? t).map f)
    (hf : ∀ r, (f r).leeway = r.leeway) : s'.leeway t = s.leeway t := by
  rw [leeway, hrecord, leeway]
  cases s.record? t with
  | none => rfl
  | some r => exact hf r

/-- Whoever arrives waits for nothing of this kind. -/
lemma Arrival.leeway_eq (ha : Arrival s s') (h : s.Roster) (t : ThreadId) :
    s'.leeway t = s.leeway t := by
  have hnone : s.record? s.nextThread = none := by simpa [started?] using h.nextThread_unknown
  have henrol : s.enrol.leeway t = s.leeway t := by
    rw [leeway, record?_enrol, leeway]
    split
    · next ht =>
      rw [ht, hnone]
      rfl
    · rfl
  cases ha with
  | enrol | block => exact henrol
  | list u work => exact leeway_of_map (record?_list work) fun _ => rfl

/-- The leeway of a thread is bounded. -/
lemma leeway_le (s : State) (t : ThreadId) : s.leeway t ≤ 4 := by
  unfold leeway
  cases s.record? t with
  | none => exact Nat.le_refl 4
  | some r =>
    simp only [Option.elim_some, ThreadRecord.leeway]
    split <;> split <;> split <;> omega

/-- The leeway of all threads is bounded. -/
lemma leeways_le (s : State) (n : Nat) : s.leeways n ≤ 4 * n := by
  have h := Finset.sum_le_card_nsmul (Finset.range n) (fun t => s.leeway ⟨t⟩) 4
    fun t _ => s.leeway_le ⟨t⟩
  rw [Finset.card_range, smul_eq_mul] at h
  exact (Nat.mul_comm n 4) ▸ h

/-- Threads with the same leeway have the same together. -/
lemma leeways_congr (h : ∀ t, s'.leeway t = s.leeway t) : s'.leeways n = s.leeways n :=
  Finset.sum_congr rfl fun t _ => h ⟨t⟩

/-- A thread that begins to wait has less leeway. -/
lemma leeways_waits {a : Nat} (ht : t.raw < n) (hother : ∀ u, u ≠ t → s'.leeway u = s.leeway u)
    (hown : s'.leeway t + a ≤ s.leeway t) : s'.leeways n + a ≤ s.leeways n :=
  Agenda.sum_add_le (f := fun u => s'.leeway ⟨u⟩) (g := fun u => s.leeway ⟨u⟩) (b := 0) ht
    (fun u hu => Nat.le_of_eq (hother ⟨u⟩ fun heq => hu (congrArg ThreadId.raw heq))) hown

/-- At most one thread is told to stop waiting after a turn. -/
lemma leeways_afterTurn (slot : Slot) : (s.afterTurn t slot).leeways n ≤ s.leeways n + 1 := by
  have hother : ∀ u, s.headOwner? s.live.consume ≠ some u →
      (s.afterTurn t slot).leeway u = s.leeway u := fun u hu =>
    leeway_of_map (record?_afterTurn slot) fun r => by simp [hu]
  by_cases hhead : ∃ u, s.headOwner? s.live.consume = some u ∧ u.raw < n
  · obtain ⟨u, hu, hn⟩ := hhead
    refine Agenda.sum_add_le (f := fun u => (s.afterTurn t slot).leeway ⟨u⟩)
      (g := fun u => s.leeway ⟨u⟩) (a := 0) (b := 1) hn (fun x hx => ?_) ?_
    · refine Nat.le_of_eq (hother ⟨x⟩ fun heq => ?_)
      cases heq.symm.trans hu
      exact hx rfl
    · rw [leeway, record?_afterTurn, leeway]
      cases s.record? ⟨u.raw⟩ with
      | none => exact Nat.le_succ 4
      | some r =>
        simp only [Option.map_some, Option.elim_some, ThreadRecord.leeway]
        split <;> split <;> omega
  · refine Nat.le_succ_of_le (Nat.le_of_eq (Finset.sum_congr rfl fun x hx => ?_))
    refine hother ⟨x⟩ fun hu => ?_
    exact hhead ⟨⟨x⟩, hu, Finset.mem_range.mp hx⟩

end State

/-- There are no more threads in the list than numbers were handed out. -/
lemma State.Roster.length_le {s : State} (h : State.Roster s) :
    s.threadList.length ≤ s.nextThread.raw := by
  have hinj : Function.Injective ThreadId.raw := fun ⟨_⟩ ⟨_⟩ heq => congrArg ThreadId.mk heq
  have hsub : s.threadList.map ThreadId.raw ⊆ List.range s.nextThread.raw := fun n hn => by
    obtain ⟨t, ht, rfl⟩ := List.mem_map.mp hn
    exact List.mem_range.mpr (h.fresh t (by simp [(h.mem_list_iff t).mp ht]))
  simpa using (List.subperm_of_subset (h.list_nodup.map hinj) hsub).length_le

/-! ### How far threads and submitters have to go -/

/-- How far a place is from those where a thread begins to wait or completes something. -/
def Phase.distance (units : Nat) : Phase → Nat
  | fill index _ _ => 7 + (units - index)
  | check _ => 6
  | awaitRoundEnd _ | awaitTurn _ | awaitHandOver _ => 4
  | enter _ | enterRetirement => 3
  | awaitPrimary _ | awaitRetirement => 2

/-- A thread that completes nothing and goes on in the same round begins to wait for something, or
comes nearer to it. -/
lemma Stretch.wait_or_approach {eligible : ThreadId → Bool} {s s' : State} {me t : ThreadId}
    {ph ph' : Phase} {n : Nat} (ho : Stretch eligible s me ph (.goto s' (.thread t ph')))
    (hs : s.Sound) (hpoised : s.Poised me (some ph)) (hround : s'.round = s.round)
    (hph : ph ≠ .awaitRetirement) (hme : me.raw < n) (hlist : s.threadList.length ≤ n) :
    s'.leeways n < s.leeways n ∨
      s'.leeways n = s.leeways n ∧ ph'.distance n < ph.distance n := by
  cases ho with
  | bootstrap | bootstrapRetirement => exact absurd (round_beginRound.symm.trans hround) (by simp)
  | closed => exact absurd (round_nextRound.symm.trans hround) (by simp)
  | retired => exact absurd rfl hph
  | finished p slot hslot =>
    obtain ⟨r, hr, -⟩ := hs.seating.primary_of_slot hslot
    have hfinished : r.finished = false := by simpa [isFinished, hr] using hpoised.not_finished rfl
    refine .inl (leeways_waits (a := 1) hme (fun u hu => ?_) ?_)
    · exact leeway_of_map record?_finish fun r => by simp [hu]
    · simp only [leeway, record?_finish, hr, Option.map_some, Option.elim_some,
        ThreadRecord.leeway, hfinished, if_true, Bool.false_eq_true, if_false]
      omega
  | notNext p slot hslot =>
    obtain ⟨r, hr, -⟩ := hs.seating.primary_of_slot hslot
    have hwaiting : r.waitingForTurn = false := by
      simpa [isWaiting, hr] using hpoised.not_waiting rfl
    refine .inl (leeways_waits (a := 1) hme (fun u hu => ?_) ?_)
    · exact leeway_of_map record?_awaitTurn fun r => by simp [hu]
    · simp only [leeway, record?_awaitTurn, hr, Option.map_some, Option.elim_some,
        ThreadRecord.leeway, hwaiting, if_true, Bool.false_eq_true, if_false]
      omega
  | queued l k slot hslot =>
    obtain ⟨r, hr, -⟩ := hs.seating.primary_of_slot hslot
    have hqueued : r.enqueued = none := by simpa [linkOf?, hr] using hpoised.not_linked rfl
    have hturn : (s.afterTurn me slot).leeways n ≤ s.leeways n + 1 := leeways_afterTurn slot
    have hqueue : ((s.afterTurn me slot).enqueue l me).leeways n + 2 ≤
        (s.afterTurn me slot).leeways n := by
      refine leeways_waits hme (fun u hu => ?_) ?_
      · exact leeway_of_map record?_enqueue fun r => by simp [hu]
      · simp only [leeway, record?_enqueue, record?_afterTurn, hr, Option.map_some,
          Option.elim_some, ThreadRecord.leeway, hqueued, if_true, Option.isSome_some,
          Option.isSome_none, Bool.false_eq_true, if_false]
        omega
    exact .inl (by omega)
  | entered | enteredRetirement | ended | woken | retry =>
    exact .inr ⟨rfl, by simp [Phase.distance]⟩
  | stillOpen k _ hk =>
    refine .inr ⟨rfl, ?_⟩
    cases k <;> cases hk <;> simp [Phase.distance]
  | skipped index plan k u r hlen hu =>
    have hindex := (List.getElem?_eq_some_iff.mp hu).1
    exact .inr ⟨rfl, by simp only [Phase.distance]; omega⟩
  | chosen index plan k u r hlen hu =>
    have hindex := (List.getElem?_eq_some_iff.mp hu).1
    refine .inr ⟨leeways_congr fun t => leeway_of_map record?_choose fun _ => rfl, ?_⟩
    simp only [Phase.distance]
    omega
  | filled index plan k =>
    refine .inr ⟨rfl, ?_⟩
    cases k <;> simp only [AfterFill.phase, Phase.distance] <;> omega

namespace Agenda

variable {w : Agenda} {submitter : Nat → Nat} {sys sys' : System} {t : ThreadId} {op : Operation}
  {o : Outcome} {i : Nat}

/-- How far a thread has to go; one that is in no operation may still call one. -/
def distance (w : Agenda) (sys : System) (t : ThreadId) : Nat :=
  match sys.calls.get? (.unit t) with
  | some ⟨_, .thread _ ph⟩ => ph.distance w.units.length
  | _ => if sys.state.isAlive t then 5 else 0

/-- How far threads and submitters have to go. -/
def way (w : Agenda) (submitter : Nat → Nat) (sys : System) : Nat :=
  ∑ t ∈ Finset.range w.units.length, w.distance sys ⟨t⟩ +
    ∑ i ∈ Finset.range w.units.length, stage submitter sys i

/-- The distance of a thread to its reply is bounded. -/
lemma distance_le (w : Agenda) (sys : System) (t : ThreadId) :
    w.distance sys t ≤ 7 + w.units.length := by
  unfold distance
  split
  · next ph _ => cases ph <;> simp only [Phase.distance] <;> omega
  · split <;> omega

/-- A submission has four stages at most. -/
lemma stage_le (submitter : Nat → Nat) (sys : System) (i : Nat) : stage submitter sys i ≤ 4 := by
  unfold stage
  split
  · exact Nat.zero_le 4
  · unfold callStage
    split
    · next p _ =>
      split
      · cases p <;> simp [Submission.stage]
      · exact Nat.le_refl 4
    · exact Nat.le_refl 4

/-- The way of everybody to their replies is bounded. -/
lemma way_le : w.way submitter sys ≤ w.units.length * (11 + w.units.length) := by
  have hdistance := Finset.sum_le_card_nsmul (Finset.range w.units.length)
    (fun t => w.distance sys ⟨t⟩) _ fun t _ => w.distance_le sys ⟨t⟩
  have hstage := Finset.sum_le_card_nsmul (Finset.range w.units.length) (stage submitter sys) _
    fun i _ => stage_le submitter sys i
  rw [Finset.card_range, smul_eq_mul] at hdistance hstage
  calc w.way submitter sys
    _ ≤ w.units.length * (7 + w.units.length) + w.units.length * 4 :=
      Nat.add_le_add hdistance hstage
    _ = w.units.length * (11 + w.units.length) := by
      rw [← Nat.mul_add]
      congr 1
      omega

/-- A thread with the same call that did not come to life is no farther from its reply. -/
lemma distance_le_of_calls (hcall : sys'.calls.get? (.unit t) = sys.calls.get? (.unit t))
    (halive : sys'.state.isAlive t = true → sys.state.isAlive t = true) :
    w.distance sys' t ≤ w.distance sys t := by
  unfold distance
  rw [hcall]
  split
  · exact Nat.le_refl _
  · split
    · next ht => rw [if_pos (halive ht)]
    · exact Nat.zero_le _

/-- A thread that comes nearer shortens the way. -/
lemma way_apply_unit {v : Option ThreadId} (hs : sys.state.Sound) (hsubmits : op.submits = false)
    (hc : Change sys.state v (o.state sys.state)) (ht : t.raw < w.units.length)
    (hown : w.distance (sys.apply (.unit t) op o) t < w.distance sys t) :
    w.way submitter (sys.apply (.unit t) op o) < w.way submitter sys := by
  have hdistance := sum_add_le (f := fun u => w.distance (sys.apply (.unit t) op o) ⟨u⟩)
    (g := fun u => w.distance sys ⟨u⟩) (a := 1) (b := 0) ht (fun u hu => ?_) hown
  · simp only [way, stage_apply_unit hsubmits]
    omega
  · have hne : Agent.unit ⟨u⟩ ≠ .unit t :=
      fun heq => hu (congrArg ThreadId.raw (Agent.unit.inj heq))
    exact distance_le_of_calls (by rw [System.get?_calls_apply, if_neg hne])
      fun halive => hc.alive hs (by simpa using halive)

/-- A submitter that comes nearer to the answer shortens the way. -/
lemma way_apply_client (hi : i < w.units.length)
    (hbefore : ∀ call, sys.calls.get? (.client (submitter i)) = some call →
      call.operation = .submit (.scripted i))
    (halive : ∀ t, (o.state sys.state).isAlive t = true → sys.state.isAlive t = true)
    (hown : stage submitter (sys.apply (.client (submitter i)) (.submit (.scripted i)) o) i <
      stage submitter sys i) :
    w.way submitter (sys.apply (.client (submitter i)) (.submit (.scripted i)) o) <
      w.way submitter sys := by
  have hdistance : ∀ t, w.distance (sys.apply (.client (submitter i)) (.submit (.scripted i)) o) t ≤
      w.distance sys t := fun t =>
    distance_le_of_calls (by simp [System.get?_calls_apply]) fun ht => halive t (by simpa using ht)
  have hstage := sum_add_le
    (f := stage submitter (sys.apply (.client (submitter i)) (.submit (.scripted i)) o))
    (g := stage submitter sys) (a := 1) (b := 0) hi
    (fun j hj => Nat.le_of_eq (stage_apply_client hbefore hj)) hown
  exact Nat.add_lt_add_of_le_of_lt (Finset.sum_le_sum fun t _ => hdistance ⟨t⟩) hstage

/-! ### The potential -/

/-- What can still be completed: the rounds that may begin, and everything that is due. -/
def remaining (w : Agenda) (sys : System) : Nat :=
  1 + w.units.length + w.orderedSteps - sys.state.round + w.due (fun _ => true) 2 sys

/-- Less remains if something is completed. -/
lemma remaining_lt (hround : sys'.state.round = sys.state.round)
    (hdue : w.due (fun _ => true) 2 sys' + 1 ≤ w.due (fun _ => true) 2 sys) :
    w.remaining sys' < w.remaining sys := by
  rw [remaining, hround, remaining]
  omega

/-- No more remains if nothing is added. -/
lemma remaining_le (hround : sys'.state.round = sys.state.round)
    (hdue : w.due (fun _ => true) 2 sys' ≤ w.due (fun _ => true) 2 sys) :
    w.remaining sys' ≤ w.remaining sys := by
  rw [remaining, hround, remaining]
  omega

/-- How much can still happen, apart from what whoever is inside the critical section does there. -/
def prospect (w : Agenda) (submitter : Nat → Nat) (sys : System) : Nat :=
  (w.remaining sys * (4 * w.units.length + 1) + sys.state.leeways w.units.length) *
    (3 * (w.units.length * (11 + w.units.length)) + 3) + 3 * w.way submitter sys

/-- How much can still happen. -/
def potential (w : Agenda) (submitter : Nat → Nat) (sys : System) : Nat :=
  w.prospect submitter sys + sys.unrest w.eligible

/-- What a step does that is more than falling asleep or waking up. -/
inductive Nearer (w : Agenda) (submitter : Nat → Nat) (sys sys' : System) : Prop
  /-- Something is completed, or a round begins. -/
  | complete (h : w.remaining sys' < w.remaining sys)
  /-- Somebody begins to wait. -/
  | wait (h : w.remaining sys' ≤ w.remaining sys)
    (hwait : sys'.state.leeways w.units.length < sys.state.leeways w.units.length)
  /-- Somebody comes nearer to that. -/
  | approach (h : w.remaining sys' ≤ w.remaining sys)
    (hwait : sys'.state.leeways w.units.length ≤ sys.state.leeways w.units.length)
    (hway : w.way submitter sys' < w.way submitter sys)

/-- What counts less cannot make up for what counts more. -/
lemma mul_add_le_of_lt {a a' b b' c m : Nat} (h : a' < a) (hb : b' + c ≤ m) :
    a' * m + b' + c ≤ a * m + b := by
  have hmul : a' * m + m ≤ a * m := Nat.succ_mul a' m ▸ Nat.mul_le_mul_right m h
  omega

/-- Such a step lowers the prospect by more than what anybody inside the critical section adds. -/
lemma Nearer.prospect_add_le (h : w.Nearer submitter sys sys') :
    w.prospect submitter sys' + 3 ≤ w.prospect submitter sys := by
  have hleeways := sys'.state.leeways_le w.units.length
  have hway : w.way submitter sys' ≤ _ := way_le
  have hbelow : w.remaining sys' * (4 * w.units.length + 1) +
      sys'.state.leeways w.units.length < w.remaining sys * (4 * w.units.length + 1) +
        sys.state.leeways w.units.length →
      w.prospect submitter sys' + 3 ≤ w.prospect submitter sys :=
    fun hlt => mul_add_le_of_lt hlt (by omega)
  cases h with
  | complete h => exact hbelow (mul_add_le_of_lt (c := 1) h (by omega))
  | wait h hwait => exact hbelow (Nat.add_lt_add_of_le_of_lt (Nat.mul_le_mul_right _ h) hwait)
  | approach h hwait hway =>
    have hmul := Nat.mul_le_mul_right (3 * (w.units.length * (11 + w.units.length)) + 3)
      (Nat.add_le_add (Nat.mul_le_mul_right (4 * w.units.length + 1) h) hwait)
    unfold prospect
    omega

/-! ### One step -/

/-- The call of a thread. -/
lemma Nearer.call (hengaged : w.Engaged submitter sys) (hinv : Invariant sys)
    (hidle : sys.calls.get? (.unit t) = none) (halive : sys.state.isAlive t = true)
    (hop : op = (w.todo t sys.returns).operation) (ho : Opening sys.state (.unit t) op o) :
    w.Nearer submitter sys (sys.apply (.unit t) op o) := by
  have hs := hinv.sound
  have hsubmits : op.submits = false := hop ▸ Routine.submits_operation _
  have hc : Change sys.state none (o.state sys.state) := ho.change
  obtain ⟨r, hr, -⟩ := exists_record_of_isAlive halive
  have ht : t.raw < w.units.length := hengaged.raw_lt hinv (by simp [hr])
  have hgoto : ∀ ph, ph.distance w.units.length = 3 → w.Nearer submitter sys
      (sys.apply (.unit t) op (.goto sys.state (.thread t ph))) := fun ph hph => by
    refine .approach (remaining_le rfl ?_) (Nat.le_refl _) (way_apply_unit (v := none) hs hsubmits
      .stay ht ?_)
    · exact due_apply_unit (a := 0) (v := none) hs hsubmits .stay ht (load_le rfl id)
    · simp [distance, System.get?_calls_apply, Outcome.call?, hph, hidle, halive]
  have hreply : ∀ {s' r}, o = .reply s' r → op ≠ .retire → s'.round = sys.state.round →
      w.Nearer submitter sys (sys.apply (.unit t) op o) := fun {s' r} heq hne hround => by
    subst heq
    exact .complete (remaining_lt (by rw [System.state_apply]; exact hround)
      (due_reply_lt hs hop hc ht (Routine.countP_true (hop ▸ hne))))
  cases ho with
  | submit | fill => cases hsubmits
  | turn | lock | reconfigure | retire => exact hgoto _ rfl
  | owner | relock | notOwner | released | handedOver => exact hreply rfl (by simp) rfl
  | unlinked | forgotten => exact absurd hop.symm operation_ne_unqueue

/-- A thread that goes one place further. -/
lemma Nearer.stretch {ph : Phase} (hengaged : w.Engaged submitter sys) (hinv : Invariant sys)
    (hcall : sys.calls.get? (.unit t) = some ⟨ph.operation, .thread t ph⟩)
    (hop : (w.todo t sys.returns).operation = ph.operation)
    (ho : Stretch w.eligible sys.state t ph o) (hsleep : o ≠ .sleep)
    (hround : (o.state sys.state).round ≤ 1 + w.units.length + w.orderedSteps) :
    w.Nearer submitter sys (sys.apply (.unit t) ph.operation o) := by
  have hs := hinv.sound
  have ht := hengaged.raw_lt_of_call hcall
  have hsubmits : ph.operation.submits = false := hop ▸ Routine.submits_operation _
  have hc := hinv.stretch_change hcall rfl ho
  have hplaced := hcall ▸ hinv.placed (.unit t)
  cases o with
  | sleep => exact absurd rfl hsleep
  | pause s' point => cases ho
  | reply s' r =>
    have hreply : ph.operation ≠ .retire → s'.round = sys.state.round →
        w.Nearer submitter sys (sys.apply (.unit t) ph.operation (.reply s' r)) := fun hne hround =>
      .complete (remaining_lt (by rw [System.state_apply]; exact hround)
        (due_reply_lt hs hop.symm hc ht (Routine.countP_true (hop ▸ hne))))
    cases ho with
    | turn slot | granted _ _ slot | staged _ slot | refused _ slot | overflowed _ slot =>
      exact hreply (by simp [Phase.operation, Purpose.operation]) (round_afterTurn slot)
    | handed l => exact hreply (by simp [Phase.operation]) rfl
    | left =>
      refine .approach (remaining_le rfl (due_reply_le hs hop.symm hc ht)) (Nat.le_refl _)
        (way_apply_unit hs hsubmits hc ht ?_)
      simp only [distance, System.get?_calls_apply, hcall, if_true, Outcome.call?, Phase.distance]
      split <;> omega
  | goto s' point =>
    obtain ⟨ph', rfl⟩ : ∃ ph', point = .thread t ph' := by cases ho <;> exact ⟨_, rfl⟩
    by_cases hretires : ph = .awaitRetirement
    · subst hretires
      cases ho with
      | retired slot =>
        exact .complete (remaining_lt (round_afterRetirement slot)
          (due_retired hs hc (hplaced.alive rfl) ht))
    · have hdue : w.due (fun _ => true) 2 (sys.apply (.unit t) ph.operation
          (.goto s' (.thread t ph'))) ≤ w.due (fun _ => true) 2 sys :=
        due_apply_unit (a := 0) hs hsubmits hc ht (load_le rfl fun halive => hc.alive hs halive)
      rcases hc.round_eq with hsame | ⟨hnext, -⟩
      · have hlist : sys.state.threadList.length ≤ w.units.length :=
          Nat.le_trans hs.roster.length_le (Nat.le_trans (Nat.le_add_right _ _) hengaged.room)
        rcases ho.wait_or_approach hs hplaced.poised hsame hretires ht hlist with
          hwait | ⟨hwait, hdistance⟩
        · exact .wait (remaining_le hsame hdue) hwait
        · refine .approach (remaining_le hsame hdue) (Nat.le_of_eq hwait)
            (way_apply_unit hs hsubmits hc ht ?_)
          simpa [distance, System.get?_calls_apply, Outcome.call?, hcall] using hdistance
      · refine .complete ?_
        simp only [Outcome.state] at hnext hround
        simp only [remaining, System.state_apply, Outcome.state]
        omega

/-- A client that goes on within its submission. -/
lemma Nearer.client {p : Submission} (hengaged : w.Engaged submitter sys) (hinv : Invariant sys)
    (hi : i < w.units.length)
    (hcall : sys.calls.get? (.client (submitter i)) = some ⟨.submit (.scripted i), .submission p⟩)
    (hanswered : answered i sys.returns = false) (hafter : p.after = .answer)
    (ho : Intake sys.config sys.state p o) (hsleep : o ≠ .sleep) :
    w.Nearer submitter sys (sys.apply (.client (submitter i)) (.submit (.scripted i)) o) := by
  have hbefore : ∀ call, sys.calls.get? (.client (submitter i)) = some call →
      call.operation = .submit (.scripted i) := fun call hcall' => by
    cases hcall.symm.trans hcall'
    rfl
  have hstate : (o.state sys.state).round = sys.state.round ∧
      (o.state sys.state).leeways w.units.length = sys.state.leeways w.units.length := by
    rcases hinv.intake_arrival hcall ho with heq | harrival
    · rw [heq]
      exact ⟨rfl, rfl⟩
    · exact ⟨harrival.settled.round, leeways_congr (harrival.leeway_eq hinv.sound.roster)⟩
  cases o with
  | sleep => exact absurd rfl hsleep
  | pause s' point => cases ho <;> cases hafter
  | reply s' r =>
    have hdue : w.due (fun _ => true) 2 (sys.apply (.client (submitter i))
        (.submit (.scripted i)) (.reply s' r)) + 2 ≤ w.due (fun _ => true) 2 sys + 1 :=
      due_reply_client hengaged hinv hi hcall hafter hanswered ho
    exact .complete (remaining_lt hstate.1 (by omega))
  | goto s' point =>
    refine .approach (remaining_le hstate.1 (due_apply_client rfl fun t => isAlive_goto ho))
      (Nat.le_of_eq hstate.2) (way_apply_client hi hbefore (fun t => isAlive_goto ho) ?_)
    cases ho <;> rw [stage_goto hanswered, stage_of_call hanswered hcall] <;>
      simp [Submission.stage]

/-- Every step but a vain wake-up makes the end come nearer. -/
theorem Tame.potential_step (h : w.Tame submitter sys) (heligible : ∀ t, w.eligible t = true)
    (hstep : w.Disciplined submitter sys sys') :
    w.potential submitter sys' + 1 ≤ w.potential submitter sys +
      if sys.wakesInVain w.eligible sys' then 2 else 0 := by
  have hinv := h.invariant
  have hround := (h.step heligible hstep).round_le
  -- What is done inside the critical section outweighs who is inside it.
  have hnearer : ∀ {b}, w.Nearer submitter sys sys' →
      w.potential submitter sys' + 1 ≤ w.potential submitter sys + b := fun hnearer => by
    have hprospect := hnearer.prospect_add_le
    have hunrest := sys'.unrest_le w.eligible
    unfold potential
    omega
  have hsleep : ∀ a, sys.inside = some a → sys.canProceed w.eligible a = false →
      w.potential submitter { sys with inside := none } + 1 ≤ w.potential submitter sys :=
    fun a hinside hcan => by
      have hbefore : sys.unrest w.eligible = 2 := by simp [System.unrest, hinside, hcan]
      rw [potential, potential, hbefore]
      exact Nat.le_refl _
  cases h.engaged.undertaking hinv hstep with
  | call t o hinside hidle halive ho =>
    exact hnearer (.call h.engaged hinv hidle halive rfl ho)
  | stretch t ph o hinside hcall hop ho =>
    by_cases ho' : o = .sleep
    · subst ho'
      exact Nat.le_add_right_of_le (hsleep _ hinside (hinv.canProceed_of_stretch hcall ho))
    · exact hnearer (.stretch h.engaged hinv hcall hop ho ho' (by simpa using hround))
  | submit i hinside hi hidle hanswered =>
    refine hnearer (.approach (remaining_le rfl (due_apply_client rfl fun _ => id)) (Nat.le_refl _)
      (way_apply_client hi (by simp [hidle]) (fun _ => id) ?_))
    rw [stage_goto hanswered, stage_of_idle hanswered hidle]
    exact Nat.le_refl 4
  | intake i p o hinside hi hcall hanswered hafter ho =>
    by_cases ho' : o = .sleep
    · subst ho'
      exact Nat.le_add_right_of_le (hsleep _ hinside (hinv.canProceed_of_intake hcall ho))
    · exact hnearer (.client h.engaged hinv hi hcall hanswered hafter ho ho')
  | enter a hinside hcall =>
    have hprospect : w.prospect submitter { sys with inside := some a } =
      w.prospect submitter sys := rfl
    have hcan : ({ sys with inside := some a } : System).canProceed w.eligible a =
      sys.canProceed w.eligible a := rfl
    rw [potential, potential, hprospect]
    simp only [System.unrest, hinside, hcan, System.wakesInVain, Option.isNone_none, Bool.true_and,
      Option.any_some, hcall]
    cases sys.canProceed w.eligible a <;> simp

end Agenda

end RoundScheduler
