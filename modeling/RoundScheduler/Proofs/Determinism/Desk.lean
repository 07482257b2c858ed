import Mathlib.Logic.Function.Basic
import RoundScheduler.Proofs.Determinism.Agenda

/-!
# Routines and locks

What matters of the threads and the locks, once it is forgotten where the threads stand: what is
left of each routine, who owns which lock, and who waits for it. A thread that is handed a lock is
done with its instruction at once, although it learns of it later. This file shows that what two
threads do to the desk commutes, unless both take a lock.
-/

namespace RoundScheduler

open Function

/-- The staged configuration after a request for another one, and how the request ended. -/
def Request.revise (r : Request) (staged : RoundConfig) : RoundConfig × Verdict :=
  match RoundConfig.roundRobin (r.resolve staged).1 (r.resolve staged).2 with
  | .ok c => (c, .done)
  | .error (.empty _) => (staged, .refused)
  | .error (.overflow _) => (staged, .failed)

/-- The staged configuration after a step. -/
def Purpose.revise (staged : RoundConfig) : Purpose → RoundConfig
  | reconfigure r => (r.revise staged).1
  | _ => staged

/-- The routines of the threads, and the locks. -/
@[ext]
structure Desk where
  /-- What is left to do for a thread. -/
  todo : ThreadId → Routine
  /-- The lock in whose queue a thread is. -/
  link : ThreadId → Option LockId := fun _ => none
  /-- The owner of a lock. -/
  owner : LockId → Option ThreadId := fun _ => none
  /-- The threads that wait for a lock. -/
  queue : LockId → List ThreadId := fun _ => []
  /-- The threads that a lock was granted to. -/
  grants : LockId → List ThreadId := fun _ => []

namespace Desk

/-- What a thread will ask for next, unless it retires. -/
def next? (d : Desk) (t : ThreadId) : Option Order := (d.todo t).head?.map (·.order)

/-- The desk after the first instruction of a thread ended. -/
def pass (d : Desk) (t : ThreadId) (v : Verdict) : Desk :=
  { d with todo := update d.todo t ((d.todo t).after v) }

/-- The desk after a lock was granted to a thread, whose request for it is done. -/
def acquire (d : Desk) (t : ThreadId) (l : LockId) : Desk :=
  { d.pass t .done with
    owner := update d.owner l (some t)
    grants := update d.grants l (d.grants l ++ [t]) }

/-- The desk with a thread at the end of the queue of a lock. -/
def await (d : Desk) (t : ThreadId) (l : LockId) : Desk :=
  { d with
    link := update d.link t (some l)
    queue := update d.queue l (d.queue l ++ [t]) }

/-- The desk after the step by which a thread asks for a lock. -/
def take (d : Desk) (t : ThreadId) (l : LockId) : Desk :=
  if d.owner l = none then d.acquire t l else d.await t l

/-- The desk after a thread released a lock that nobody waits for. -/
def release (d : Desk) (t : ThreadId) (l : LockId) : Desk :=
  { d.pass t .done with owner := update d.owner l none }

/-- The desk after a thread handed a lock to another one, `rest` being those who go on waiting. -/
def handOver (d : Desk) (t : ThreadId) (l : LockId) (next : ThreadId) (rest : List ThreadId) :
    Desk :=
  { (d.pass t .done).acquire next l with
    link := update d.link next none
    queue := update d.queue l rest }

/-- The desk after a thread gave up a lock that it owned. -/
def give (d : Desk) (t : ThreadId) (l : LockId) : Desk :=
  match d.queue l with
  | [] => d.release t l
  | next :: rest => d.handOver t l next rest

/-- The desk after a step of a thread, given the configuration that was staged. -/
def serve (d : Desk) (staged : RoundConfig) (t : ThreadId) : Purpose → Desk
  | .turn => d.pass t .done
  | .lock l => d.take t l
  | .reconfigure r => d.pass t (r.revise staged).2

/-- The desk without anybody in a queue. -/
def clear (d : Desk) : Desk := { d with link := fun _ => none, queue := fun _ => [] }

/-- The queues and the links agree, and whoever is in a queue asks for the lock. -/
structure Sound (d : Desk) : Prop where
  linked : ∀ t l, t ∈ d.queue l ↔ d.link t = some l
  nodup : ∀ l, (d.queue l).Nodup
  free : ∀ l, d.owner l = none → d.queue l = []
  asking : ∀ t l, d.link t = some l → d.next? t = some (.step (.lock l)) ∧ d.owner l ≠ some t

variable {d : Desk} {t u x : ThreadId} {l m : LockId} {v v' : Verdict}

/-- Whoever asks for a free lock acquires it. -/
lemma take_of_free (h : d.owner l = none) : d.take t l = d.acquire t l := if_pos h

/-- Whoever asks for an owned lock waits for it. -/
lemma take_of_owned (h : d.owner l ≠ none) : d.take t l = d.await t l := if_neg h

/-- A lock that nobody waits for is released. -/
lemma give_of_nil (h : d.queue l = []) : d.give t l = d.release t l := by rw [give, h]

/-- A lock that somebody waits for is handed to the first who does. -/
lemma give_of_cons {next : ThreadId} {rest : List ThreadId} (h : d.queue l = next :: rest) :
    d.give t l = d.handOver t l next rest := by rw [give, h]

/-- Nobody who is in no queue waits for a lock. -/
lemma Sound.ne_of_head (hs : d.Sound) {rest : List ThreadId} (hq : d.queue l = u :: rest)
    (ht : d.link t = none) : u ≠ t := by
  rintro rfl
  simp [(hs.linked u l).mp (by simp [hq])] at ht

/-! ### What others see -/

/-- The thread `x` has as much to do as before, and the same locks. -/
structure Spared (d d' : Desk) (x : ThreadId) : Prop where
  todo : d'.todo x = d.todo x
  link : d'.link x = d.link x
  owner : ∀ l, d'.owner l = some x ↔ d.owner l = some x

/-- The thread `x` was handed the lock `l`, for which it waited. -/
structure Handed (d d' : Desk) (x : ThreadId) (l : LockId) : Prop where
  todo : d'.todo x = (d.todo x).after .done
  link_before : d.link x = some l
  link : d'.link x = none
  owner : ∀ m, d'.owner m = some x ↔ m = l ∨ d.owner m = some x

/-- Nothing happens to a thread on the same desk. -/
lemma Spared.refl (d : Desk) (x : ThreadId) : Spared d d x := ⟨rfl, rfl, fun _ => .rfl⟩

/-- What spares a thread may be undone. -/
lemma Spared.symm {d' : Desk} (h : Spared d d' x) : Spared d' d x :=
  ⟨h.todo.symm, h.link.symm, fun l => (h.owner l).symm⟩

/-- A thread that is spared asks for the same next. -/
lemma Spared.next? {d' : Desk} (h : Spared d d' x) : d'.next? x = d.next? x := by
  rw [Desk.next?, h.todo, Desk.next?]

/-- Whoever is done with an instruction spares the others. -/
lemma spared_pass (hxt : x ≠ t) : Spared d (d.pass t v) x where
  todo := update_of_ne hxt _ _
  link := rfl
  owner _ := .rfl

/-- Whoever asks for a lock spares the others. -/
lemma spared_take (hxt : x ≠ t) : Spared d (d.take t l) x := by
  by_cases hfree : d.owner l = none
  · rw [take_of_free hfree]
    refine ⟨update_of_ne hxt _ _, rfl, fun m => ?_⟩
    simp only [acquire, update_apply]
    grind
  · rw [take_of_owned hfree]
    exact ⟨rfl, update_of_ne hxt _ _, fun _ => .rfl⟩

/-- A step of a thread spares the others. -/
lemma spared_serve (hxt : x ≠ t) (staged : RoundConfig) (p : Purpose) :
    Spared d (d.serve staged t p) x := by
  cases p with
  | turn => exact spared_pass hxt
  | lock l => exact spared_take hxt
  | reconfigure r => exact spared_pass hxt

/-- Whoever gives up a lock hands it to the first thread that waits for it, and to nobody else. -/
lemma spared_or_handed_give (hs : d.Sound) (howner : d.owner l = some t) (hxt : x ≠ t) :
    Spared d (d.give t l) x ∨ Handed d (d.give t l) x l := by
  cases hq : d.queue l with
  | nil =>
    rw [give_of_nil hq]
    refine .inl ⟨update_of_ne hxt _ _, rfl, fun m => ?_⟩
    simp only [release, update_apply]
    grind
  | cons next rest =>
    have hlink := (hs.linked next l).mp (by simp [hq])
    have hnt : next ≠ t := by
      rintro rfl
      exact (hs.asking next l hlink).2 howner
    rw [give_of_cons hq]
    by_cases hx : x = next
    · subst hx
      refine .inr ⟨?_, hlink, update_self _ _ _, fun m => ?_⟩
      · simp [handOver, acquire, pass, hnt]
      · simp only [handOver, acquire, pass, update_apply]
        grind
    · refine .inl ⟨?_, update_of_ne hx _ _, fun m => ?_⟩
      · simp [handOver, acquire, pass, hx, hxt]
      · simp only [handOver, acquire, pass, update_apply]
        grind

/-! ### The desk stays sound -/

namespace Sound

/-- A thread that waits for no lock may be done with an instruction. -/
lemma pass (hs : d.Sound) (ht : d.link t = none) : (d.pass t v).Sound where
  linked := hs.linked
  nodup := hs.nodup
  free := hs.free
  asking x l hx := by
    have hxt : x ≠ t := by
      rintro rfl
      simp [Desk.pass, ht] at hx
    rw [(spared_pass hxt).next?]
    exact hs.asking x l hx

/-- A thread may take the lock that it asks for, unless it owns it. -/
lemma take (hs : d.Sound) (ht : d.link t = none) (hnext : d.next? t = some (.step (.lock l)))
    (howner : d.owner l ≠ some t) : (d.take t l).Sound := by
  by_cases hfree : d.owner l = none
  · rw [take_of_free hfree]
    refine ⟨hs.linked, hs.nodup, fun m hm => ?_, fun x m hx => ?_⟩
    · simp only [acquire, update_apply] at hm
      exact hs.free m (by grind)
    · have hxt : x ≠ t := by
        rintro rfl
        simp [acquire, Desk.pass, ht] at hx
      have hspared : Spared d (d.take t l) x := spared_take hxt
      rw [take_of_free hfree] at hspared
      obtain ⟨hnext', hne⟩ := hs.asking x m hx
      exact ⟨hspared.next?.trans hnext', mt (hspared.owner m).mp hne⟩
  · rw [take_of_owned hfree]
    have hnot : ∀ m, t ∉ d.queue m := fun m hm => by simp [(hs.linked t m).mp hm] at ht
    refine ⟨fun x m => ?_, fun m => ?_, fun m hm => ?_, fun x m hx => ?_⟩
    · have hlinked := hs.linked x m
      simp only [await, update_apply]
      grind
    · simp only [await, update_apply]
      split
      · next hm =>
        refine List.nodup_append.mpr ⟨hs.nodup l, by simp, fun x hx y hy => ?_⟩
        rintro rfl
        exact hnot l (List.mem_singleton.mp hy ▸ hx)
      · exact hs.nodup m
    · have hml : m ≠ l := by
        rintro rfl
        exact hfree hm
      simpa [await, hml] using hs.free m hm
    · by_cases hxt : x = t
      · subst hxt
        obtain rfl : l = m := by simpa [await] using hx
        exact ⟨hnext, howner⟩
      · have hx' : d.link x = some m := by simpa [await, hxt] using hx
        exact hs.asking x m hx'

/-- A thread may take the step that it asks for, unless that is a lock that it owns. -/
lemma serve (hs : d.Sound) (ht : d.link t = none) {p : Purpose} (hnext : d.next? t = some (.step p))
    (howner : ∀ l, p.lock? = some l → d.owner l ≠ some t) (staged : RoundConfig) :
    (d.serve staged t p).Sound := by
  cases p with
  | turn => exact hs.pass ht
  | lock l => exact hs.take ht hnext (howner l rfl)
  | reconfigure r => exact hs.pass ht

/-- The owner of a lock may give it up: the next owner asked for it and leaves the queue. -/
lemma give (hs : d.Sound) (ht : d.link t = none) (howner : d.owner l = some t) :
    (d.give t l).Sound := by
  have hasking : ∀ x m, (d.give t l).link x = some m →
      (d.give t l).next? x = some (.step (.lock m)) ∧ (d.give t l).owner m ≠ some x := by
    intro x m hx
    have hxt : x ≠ t := by
      rintro rfl
      cases hq : d.queue l with
      | nil =>
        rw [give_of_nil hq] at hx
        simp [release, Desk.pass, ht] at hx
      | cons next rest =>
        rw [give_of_cons hq] at hx
        simp [handOver, (hs.ne_of_head hq ht).symm, ht] at hx
    rcases spared_or_handed_give hs howner hxt with hspared | hhanded
    · obtain ⟨hnext, hne⟩ := hs.asking x m (hspared.link ▸ hx)
      exact ⟨hspared.next?.trans hnext, mt (hspared.owner m).mp hne⟩
    · simp [hhanded.link] at hx
  cases hq : d.queue l with
  | nil =>
    rw [give_of_nil hq] at hasking ⊢
    refine ⟨hs.linked, hs.nodup, fun m hm => ?_, hasking⟩
    by_cases hml : m = l
    · exact hml ▸ hq
    · exact hs.free m (by simpa [release, hml] using hm)
  | cons next rest =>
    rw [give_of_cons hq] at hasking ⊢
    have hnodup : (next :: rest).Nodup := hq ▸ hs.nodup l
    have hlink := (hs.linked next l).mp (by simp [hq])
    refine ⟨fun x m => ?_, fun m => ?_, fun m hm => ?_, hasking⟩
    · have hlinked := hs.linked x m
      simp only [handOver, update_apply]
      grind
    · simp only [handOver, update_apply]
      split
      · exact hnodup.of_cons
      · exact hs.nodup m
    · have hml : m ≠ l := by
        rintro rfl
        simp [handOver, acquire] at hm
      have hm' : d.owner m = none := by simpa [handOver, acquire, Desk.pass, hml] using hm
      simpa [handOver, hml] using hs.free m hm'

/-- The queues may be emptied between two rounds. -/
lemma clear (d : Desk) : d.clear.Sound where
  linked := by simp [Desk.clear]
  nodup _ := List.nodup_nil
  free _ _ := rfl
  asking := by simp [Desk.clear]

end Sound

/-! ### What two threads do commutes -/

/-- Two threads are done with an instruction each, in any order. -/
lemma pass_pass (htu : t ≠ u) : (d.pass t v).pass u v' = (d.pass u v').pass t v := by
  ext x <;> simp only [pass, update_apply]
  grind

/-- It does not matter whether a thread asks for a lock before or after another one passes. -/
lemma pass_take (htu : t ≠ u) : (d.pass t v).take u l = (d.take u l).pass t v := by
  by_cases hfree : d.owner l = none
  · rw [take_of_free hfree, take_of_free (d := d.pass t v) hfree]
    ext x <;> simp only [acquire, pass, update_apply]
    grind
  · rw [take_of_owned hfree, take_of_owned (d := d.pass t v) hfree]
    rfl

/-- A thread that waits for no lock is not the one a lock is handed to, so it passes before or after
that. -/
lemma pass_give (hs : d.Sound) (htu : t ≠ u) (ht : d.link t = none) :
    (d.pass t v).give u l = (d.give u l).pass t v := by
  cases hq : d.queue l with
  | nil =>
    rw [give_of_nil hq, give_of_nil (d := d.pass t v) hq]
    ext x <;> simp only [release, pass, update_apply]
    grind
  | cons next rest =>
    have hnext := hs.ne_of_head hq ht
    rw [give_of_cons hq, give_of_cons (d := d.pass t v) hq]
    ext x <;> simp only [handOver, acquire, pass, update_apply]
    grind

/-- A request for a lock commutes with the release of the lock: the lock gets the same owner whether
the request finds it free or waits for it. -/
lemma take_give_self (hs : d.Sound) (ht : d.link t = none) (howner : d.owner l = some u) :
    (d.take t l).give u l = (d.give u l).take t l := by
  have howned : d.owner l ≠ none := by simp [howner]
  rw [take_of_owned howned]
  cases hq : d.queue l with
  | nil =>
    have hq' : (d.await t l).queue l = [t] := by simp [await, hq]
    have hfree : (d.release u l).owner l = none := by simp [release]
    rw [give_of_cons hq', give_of_nil hq, take_of_free hfree]
    ext x <;> simp only [handOver, await, acquire, release, pass, update_apply] <;> grind
  | cons next rest =>
    have hnext := hs.ne_of_head hq ht
    have hq' : (d.await t l).queue l = next :: (rest ++ [t]) := by simp [await, hq]
    have howned' : (d.handOver u l next rest).owner l ≠ none := by simp [handOver, acquire]
    rw [give_of_cons hq', give_of_cons hq, take_of_owned howned']
    ext x <;> simp only [handOver, await, acquire, pass, update_apply] <;> grind

/-- A request for a lock commutes with the release of another one. -/
lemma take_give_of_ne (hs : d.Sound) (htu : t ≠ u) (ht : d.link t = none) (hlm : l ≠ m) :
    (d.take t l).give u m = (d.give u m).take t l := by
  have hml : m ≠ l := Ne.symm hlm
  cases hq : d.queue m with
  | nil =>
    rw [give_of_nil hq]
    by_cases hfree : d.owner l = none
    · have hq' : (d.acquire t l).queue m = [] := hq
      have hfree' : (d.release u m).owner l = none := by simpa [release, hlm] using hfree
      rw [take_of_free hfree, take_of_free hfree', give_of_nil hq']
      ext x <;> simp only [acquire, release, pass, update_apply] <;> grind
    · have hq' : (d.await t l).queue m = [] := by simpa [await, hml] using hq
      have howned' : (d.release u m).owner l ≠ none := by simpa [release, hlm] using hfree
      rw [take_of_owned hfree, take_of_owned howned', give_of_nil hq']
      rfl
  | cons next rest =>
    have hnext := hs.ne_of_head hq ht
    rw [give_of_cons hq]
    by_cases hfree : d.owner l = none
    · have hq' : (d.acquire t l).queue m = next :: rest := hq
      have hfree' : (d.handOver u m next rest).owner l = none := by
        simpa [handOver, acquire, pass, hlm] using hfree
      rw [take_of_free hfree, take_of_free hfree', give_of_cons hq']
      ext x <;> simp only [handOver, acquire, pass, update_apply] <;> grind
    · have hq' : (d.await t l).queue m = next :: rest := by simpa [await, hml] using hq
      have howned' : (d.handOver u m next rest).owner l ≠ none := by
        simpa [handOver, acquire, pass, hlm] using hfree
      rw [take_of_owned hfree, take_of_owned howned', give_of_cons hq']
      ext x <;> simp only [handOver, await, acquire, pass, update_apply] <;> grind

/-- A lock is taken before or after another thread gives one up, even if it is the same lock. -/
lemma take_give (hs : d.Sound) (htu : t ≠ u) (ht : d.link t = none) (howner : d.owner m = some u) :
    (d.take t l).give u m = (d.give u m).take t l := by
  by_cases hlm : l = m
  · subst hlm
    exact take_give_self hs ht howner
  · exact take_give_of_ne hs htu ht hlm

/-- It does not matter whether a step comes before or after another thread passes. -/
lemma pass_serve (htu : t ≠ u) (staged : RoundConfig) (p : Purpose) :
    (d.pass t v).serve staged u p = (d.serve staged u p).pass t v := by
  cases p with
  | turn => exact pass_pass htu
  | lock l => exact pass_take htu
  | reconfigure r => exact pass_pass htu

/-- It does not matter whether a step comes before or after another thread gives up a lock. -/
lemma serve_give (hs : d.Sound) (htu : t ≠ u) (ht : d.link t = none) (howner : d.owner m = some u)
    (staged : RoundConfig) (p : Purpose) :
    (d.serve staged t p).give u m = (d.give u m).serve staged t p := by
  cases p with
  | turn => exact pass_give hs htu ht
  | lock l => exact take_give hs htu ht howner
  | reconfigure r => exact pass_give hs htu ht

/-- Two threads give up two locks, in any order: the two new owners are different. -/
lemma give_give (hs : d.Sound) (htu : t ≠ u) (hlm : l ≠ m) (ht : d.link t = none)
    (hu : d.link u = none) : (d.give t l).give u m = (d.give u m).give t l := by
  have hml : m ≠ l := Ne.symm hlm
  cases hl : d.queue l with
  | nil =>
    cases hm : d.queue m with
    | nil =>
      rw [give_of_nil hl, give_of_nil hm, give_of_nil (d := d.release t l) hm,
        give_of_nil (d := d.release u m) hl]
      ext x <;> simp only [release, pass, update_apply] <;> grind
    | cons next rest =>
      have hnext := hs.ne_of_head hm ht
      have hl' : (d.handOver u m next rest).queue l = [] := by simpa [handOver, hlm] using hl
      rw [give_of_nil hl, give_of_cons hm, give_of_cons (d := d.release t l) hm, give_of_nil hl']
      ext x <;> simp only [handOver, acquire, release, pass, update_apply] <;> grind
  | cons next rest =>
    have hnext := hs.ne_of_head hl hu
    cases hm : d.queue m with
    | nil =>
      have hm' : (d.handOver t l next rest).queue m = [] := by simpa [handOver, hml] using hm
      rw [give_of_cons hl, give_of_nil hm, give_of_cons (d := d.release u m) hl, give_of_nil hm']
      ext x <;> simp only [handOver, acquire, release, pass, update_apply] <;> grind
    | cons next' rest' =>
      have hnext' := hs.ne_of_head hm ht
      -- Nobody is in two queues.
      have hne : next ≠ next' := by
        rintro rfl
        have hlink := ((hs.linked next l).mp (by simp [hl])).symm.trans
          ((hs.linked next m).mp (by simp [hm]))
        exact hlm (Option.some_inj.mp hlink)
      have hl' : (d.handOver u m next' rest').queue l = next :: rest := by
        simpa [handOver, hlm] using hl
      have hm' : (d.handOver t l next rest).queue m = next' :: rest' := by
        simpa [handOver, hml] using hm
      rw [give_of_cons hl, give_of_cons hm, give_of_cons hl', give_of_cons hm']
      ext x <;> simp only [handOver, acquire, pass, update_apply] <;> grind

end Desk

end RoundScheduler
