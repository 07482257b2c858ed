import RoundScheduler.Proofs.Dealings

/-!
# The order in which locks are granted

The queue of a lock is a list that several parties change: turns add to it, the owner of the lock
and bystanders take from it without a turn, and the end of a round empties it. It still lists
exactly those who wait for the lock by the dealings of the run, in the order in which they asked for
it, and whenever the lock is granted the first of them gets it.
-/

namespace RoundScheduler

open State

/-! ### Queues list those who wait -/

/-- The queues agree with the dealings `ds` of a run. -/
structure InLine (sys : System) (ds : List Dealing) : Prop where
  /-- The queue of a lock lists those who wait for it. -/
  queue : ∀ l k, sys.state.lock? l = some k → k.queue = waitingFor sys.state.round l ds
  /-- Nobody asked in a round that is still to come, or for a lock that is still to be created. -/
  dated : ∀ round t l owned, .asked round t l owned ∈ ds →
    round ≤ sys.state.round ∧ l.raw < sys.state.nextLock.raw

namespace InLine

variable {sys sys' : System} {ds new : List Dealing}

/-- The agreement is kept within a round if the new dealings say how the queues change. -/
lemma extend (h : InLine sys ds) (hsound : sys.state.Sound) {s' : State}
    {change : LockId → LockState → LockState} (hstate : sys'.state = s')
    (hround : s'.round = sys.state.round) (hnext : s'.nextLock = sys.state.nextLock)
    (hnew : ∀ round t l owned, .asked round t l owned ∈ new →
      round = sys.state.round ∧ (sys.state.lock? l).isSome)
    (hlock : ∀ l, s'.lock? l = (sys.state.lock? l).map (change l))
    (hqueue : ∀ l k, sys.state.lock? l = some k → (change l k).queue =
      k.queue.filter (keepsWaiting l new) ++ waitingFor sys.state.round l new) :
    InLine sys' (ds ++ new) where
  queue l k' hk' := by
    rw [hstate, hlock] at hk'
    obtain ⟨k, hk, rfl⟩ := Option.map_eq_some_iff.mp hk'
    rw [hqueue l k hk, h.queue l k hk, hstate, hround, waitingFor_append]
  dated round t l owned hmem := by
    rw [hstate, hround, hnext]
    rcases List.mem_append.mp hmem with hmem | hmem
    · exact h.dated round t l owned hmem
    · obtain ⟨hr, hl⟩ := hnew round t l owned hmem
      obtain ⟨k, hk⟩ := Option.isSome_iff_exists.mp hl
      exact ⟨Nat.le_of_eq hr, hsound.queues.fresh l k hk⟩

/-- The agreement is kept while queues stay as they are: nobody asked for a lock before it was
created. -/
lemma quiet (h : InLine sys ds) (hround : sys'.state.round = sys.state.round)
    (hnext : sys.state.nextLock.raw ≤ sys'.state.nextLock.raw)
    (hlock : ∀ l k', sys'.state.lock? l = some k' → (l = sys.state.nextLock ∧ k' = {}) ∨
      ∃ k, sys.state.lock? l = some k ∧ k'.queue = k.queue) : InLine sys' ds where
  queue l k' hk' := by
    rw [hround]
    rcases hlock l k' hk' with ⟨rfl, rfl⟩ | ⟨k, hk, hqueue⟩
    · refine (waitingFor_eq_nil fun t owned hmem => ?_).symm
      exact absurd (h.dated _ t _ owned hmem).2 (Nat.lt_irrefl _)
    · exact hqueue.trans (h.queue l k hk)
  dated round t l owned hmem := by
    obtain ⟨hr, hl⟩ := h.dated round t l owned hmem
    exact ⟨hround ▸ hr, Nat.lt_of_lt_of_le hl hnext⟩

/-- The agreement is kept when a round begins: nobody asked for a lock in it yet. -/
lemma nextRound (h : InLine sys ds) (hround : sys'.state.round = sys.state.round + 1)
    (hnext : sys'.state.nextLock = sys.state.nextLock)
    (hempty : ∀ l k', sys'.state.lock? l = some k' → k'.queue = []) : InLine sys' ds where
  queue l k' hk' := by
    rw [hempty l k' hk', hround]
    refine (waitingFor_eq_nil fun t owned hmem => ?_).symm
    exact absurd (h.dated _ t l owned hmem).1 (Nat.not_succ_le_self _)
  dated round t l owned hmem := by
    obtain ⟨hr, hl⟩ := h.dated round t l owned hmem
    rw [hround, hnext]
    exact ⟨Nat.le_succ_of_le hr, hl⟩

/-- A thread that is taken out of the queue that it is linked to leaves that queue only. -/
lemma filter_linked {s : State} {t : ThreadId} {l m : LockId} (hlink : s.linkOf? t = some l)
    (ts : List ThreadId) : ts.filter (fun u => ¬(u = t ∧ s.linkOf? u = some m)) =
      ts.filter fun u => !(u = t && m = l) :=
  List.filter_congr fun u _ => by
    by_cases hu : u = t <;> simp [hu, hlink, eq_comm (a := l)]

/-- The agreement is kept by every move. -/
theorem step (h : InLine sys ds) (hsound : sys.state.Sound) {m : Move}
    (ht : System.Traffic sys m sys' new) : InLine sys' (ds ++ new) := by
  cases ht with
  | quiet hround hnext hlock =>
    rw [List.append_nil]
    exact h.quiet hround hnext fun l k' hk' =>
      (hlock l k' hk').imp_right fun ⟨k, hk, hqueue, _⟩ => ⟨k, hk, hqueue⟩
  | nextRound hround hnext hlock =>
    rw [List.append_nil]
    exact h.nextRound hround hnext fun l k' hk' => (hlock l k' hk').1
  | queued t l k slot hk howned hstate =>
    refine h.extend hsound hstate (round_afterTurn slot) (nextLock_afterTurn slot)
      (by simp +contextual [hk]) (fun m => lock?_enqueue.trans (congrArg _ (lock?_afterTurn slot)))
      fun m k₀ hk₀ => Eq.symm ?_
    by_cases hm : m = l <;> simp [hm]
  | granted t l k slot hk hfree hop hstate =>
    refine h.extend hsound hstate (round_afterTurn slot) (nextLock_afterTurn slot)
      (by simp +contextual [hk]) (fun m => lock?_grant.trans (congrArg _ (lock?_afterTurn slot)))
      fun m k₀ hk₀ => Eq.symm ?_
    by_cases hm : m = l
    · -- Nobody is in the queue of a free lock.
      subst hm
      obtain rfl : k = k₀ := Option.some_inj.mp (hk.symm.trans hk₀)
      simp [hsound.queues.owned m k hk hfree]
    · simp [hm]
  | handedOver t l k next rest hk howner hqueue hm hstate =>
    have hlink := hsound.queues.linkOf?_of_head hk hqueue
    refine h.extend hsound hstate rfl rfl (by simp) (fun m => lock?_handOver) fun m k₀ _ => ?_
    simpa using filter_linked hlink k₀.queue
  | unlinked t l hlink hstate =>
    refine h.extend hsound hstate rfl rfl (by simp) (fun m => lock?_detach [t]) fun m k₀ _ => ?_
    simpa using filter_linked hlink k₀.queue
  | forgotten t l hstate =>
    refine h.extend hsound hstate rfl rfl (by simp) (fun m => lock?_forget) fun m k₀ _ => Eq.symm ?_
    by_cases hm : m = l <;> simp [hm]

/-- The queues agree with the dealings of every run. -/
theorem of_dealt {c : Config} (h : System.Dealt c sys ds) : InLine sys ds := by
  induction h with
  | start hstart =>
    obtain ⟨rounds, -, rfl⟩ := Invariant.exists_rounds_of_initial hstart
    exact ⟨nofun, nofun⟩
  | step h hm ih =>
    have hinv := Invariant.of_reachable h.reachable
    exact ih.step hinv.sound (hinv.traffic hm)

end InLine

/-! ### Who is granted a lock -/

lemma State.ownerOf?_eq_some_iff {s : State} {l : LockId} {t : ThreadId} :
    s.ownerOf? l = some t ↔ ∃ k, s.lock? l = some k ∧ k.owner = some t := by
  rw [ownerOf?, Option.bind_eq_some_iff]

namespace System

variable {sys sys' : System} {m : Move} {l : LockId} {u : ThreadId}

/-- Whoever owns a lock after a move is granted it by the move, or owned it before. -/
lemma Traffic.granted_of_owner {new : List Dealing} {k' : LockState} (h : Traffic sys m sys' new)
    (hk' : sys'.state.lock? l = some k') (howner : k'.owner = some u) :
    .granted u l ∈ new ∨ sys.state.ownerOf? l = some u := by
  rw [ownerOf?_eq_some_iff]
  cases h with
  | quiet hround hnext hlock =>
    rcases hlock l k' hk' with ⟨-, rfl⟩ | ⟨k, hk, -, hsame | hnone⟩
    · cases howner
    · exact .inr ⟨k, hk, hsame.symm.trans howner⟩
    · cases hnone.symm.trans howner
  | nextRound hround hnext hlock =>
    obtain ⟨-, k, hk, hsame⟩ := hlock l k' hk'
    exact .inr ⟨k, hk, hsame.symm.trans howner⟩
  | queued t n k slot hk howned hstate =>
    rw [hstate, lock?_enqueue, lock?_afterTurn] at hk'
    obtain ⟨k₀, hk₀, rfl⟩ := Option.map_eq_some_iff.mp hk'
    exact .inr ⟨k₀, hk₀, howner⟩
  | granted t n k slot hk hfree hop hstate =>
    rw [hstate, lock?_grant, lock?_afterTurn] at hk'
    obtain ⟨k₀, hk₀, rfl⟩ := Option.map_eq_some_iff.mp hk'
    by_cases hln : l = n
    · obtain rfl : t = u := by simpa [hln] using howner
      exact .inl (by simp [hln])
    · exact .inr ⟨k₀, hk₀, by simpa [hln] using howner⟩
  | handedOver t n k next rest hk howned hqueue hm hstate =>
    rw [hstate, lock?_handOver] at hk'
    obtain ⟨k₀, hk₀, rfl⟩ := Option.map_eq_some_iff.mp hk'
    by_cases hln : l = n
    · obtain rfl : next = u := by simpa [hln] using howner
      exact .inl (by simp [hln])
    · exact .inr ⟨k₀, hk₀, by simpa [hln] using howner⟩
  | unlinked t n hlink hstate =>
    rw [hstate, lock?_detach] at hk'
    obtain ⟨k₀, hk₀, rfl⟩ := Option.map_eq_some_iff.mp hk'
    exact .inr ⟨k₀, hk₀, howner⟩
  | forgotten t n hstate =>
    rw [hstate, lock?_forget] at hk'
    obtain ⟨k₀, hk₀, rfl⟩ := Option.map_eq_some_iff.mp hk'
    exact .inr ⟨k₀, hk₀, howner⟩

/-- A lock is granted by its owner to the head of its queue, or while it is free to the thread that
takes its turn to ask for it. -/
lemma Traffic.of_grants (h : Traffic sys m sys' (sys.dealings m sys')) (hsound : sys.state.Sound)
    (hgrants : sys.Grants sys' l u) : ∃ k, sys.state.lock? l = some k ∧
      ((∃ t rest, k.owner = some t ∧ k.queue = u :: rest ∧ m = .call (.unit t) (.unlock l)) ∨
        (k.owner = none ∧ k.queue = [] ∧ sys.operation? u = some (.lock l) ∧
          ∃ slot, sys.recorded sys' = [.turn sys.state.round u slot,
            .lockAcquired sys.state.round l u false])) := by
  have hmem : .granted u l ∈ sys.dealings m sys' := by
    rcases hgrants with ⟨howner, hother⟩ | ⟨round, queued, hrecorded⟩
    · obtain ⟨k', hk', howner⟩ := ownerOf?_eq_some_iff.mp howner
      exact (h.granted_of_owner hk' howner).resolve_right hother
    · exact granted_mem_dealings hrecorded
  generalize sys.dealings m sys' = new at h hmem
  cases h with
  | granted t n k slot hk hfree hop hstate =>
    obtain ⟨rfl, rfl⟩ : u = t ∧ l = n := by simpa using hmem
    refine ⟨k, hk, .inr ⟨hfree, hsound.queues.owned l k hk hfree, hop, slot, recorded_eq ?_⟩⟩
    rw [hstate]
    exact events_granted slot
  | handedOver t n k next rest hk howned hqueue hm hstate =>
    obtain ⟨rfl, rfl⟩ : u = next ∧ l = n := by simpa using hmem
    exact ⟨k, hk, .inl ⟨t, rest, howned, hqueue, hm⟩⟩
  | _ => simp at hmem

end System

/-- Locks are granted in the order in which they were asked for. The queue of a lock lists those who
took a turn of the current round to ask for it, found it owned, and were neither granted it nor
taken out since then, in the order of these turns. When a lock is granted, either its owner releases
it and the head of its queue is granted it, or it has no owner and an empty queue, and the thread
that just took its turn to ask for it is granted it. So whoever is granted a lock was waiting
already when any other thread that still waits asked for it. -/
theorem lock_grants_follow_requests {c : Config} {sys : System} (h : System.Reachable c sys) :
    (∃ ds, System.Dealt c sys ds) ∧ ∀ ds, System.Dealt c sys ds →
      (∀ l k, sys.state.lock? l = some k → k.queue = waitingFor sys.state.round l ds) ∧
      ∀ eligible m sys' l u, sys.move? eligible m = some sys' → sys.Grants sys' l u →
        (∃ k, sys.state.lock? l = some k ∧
          ((∃ t rest, k.owner = some t ∧ k.queue = u :: rest ∧ m = .call (.unit t) (.unlock l)) ∨
            (k.owner = none ∧ k.queue = [] ∧ sys.operation? u = some (.lock l) ∧
              ∃ slot, sys.recorded sys' = [.turn sys.state.round u slot,
                .lockAcquired sys.state.round l u false]))) ∧
        ∀ past later t, ds = past ++ .asked sys.state.round t l true :: later →
          keepsWaiting l later t = true → t = u ∨ u ∈ waitingFor sys.state.round l past := by
  refine ⟨h.exists_dealt, fun ds hds => ?_⟩
  have hinv := Invariant.of_reachable h
  have hline := InLine.of_dealt hds
  refine ⟨hline.queue, fun eligible m sys' l u hm hgrants => ?_⟩
  have hgranted := (hinv.traffic hm).of_grants hinv.sound hgrants
  refine ⟨hgranted, fun past later t hsplit hwaits => ?_⟩
  obtain ⟨k, hk, ⟨owner, rest, -, hqueue, -⟩ | ⟨-, hqueue, -⟩⟩ := hgranted
  · have hhead := (hline.queue l k hk).symm.trans hqueue
    exact eq_or_mem_of_head (hsplit ▸ hhead) hwaits
  · -- Nobody waits for a lock that is granted at once.
    have hnone := (hline.queue l k hk).symm.trans hqueue
    rw [hsplit, waitingFor_append] at hnone
    simp [hwaits] at hnone

/-! ### Two threads in a queue -/

/-- A scheduler for rounds of three primaries with one step each. -/
def tripleConfig : Config := { primaries := 3 }

/-- The moves by which the first of three threads acquires the only lock, and the second and the
third join its queue. -/
def twoWaitersMoves : List Move :=
  [.newLock, .call (.client 0) (.submit .noop), .advance, .advance,
    .call (.client 0) (.submit .noop), .advance, .advance,
    .call (.client 0) (.submit .noop), .advance, .advance,
    .call (.unit ⟨0⟩) (.lock ⟨0⟩), .advance, .advance, .advance, .advance, .advance, .advance,
    .call (.unit ⟨1⟩) (.lock ⟨0⟩), .advance, .advance, .advance, .advance,
    .call (.unit ⟨2⟩) (.lock ⟨0⟩), .advance, .advance, .advance, .advance]

/-- The second thread is granted the lock before the third, because it was in the queue when the
third asked. -/
theorem lock_grants_follow_requests_twoWaiters :
    ∃ sys sys' ds, System.run? tripleConfig (fun _ => true) twoWaitersMoves = some sys ∧
      sys.move? (fun _ => true) (.call (.unit ⟨0⟩) (.unlock ⟨0⟩)) = some sys' ∧
      System.Dealt tripleConfig sys ds ∧ waitingFor 1 ⟨0⟩ ds = [⟨1⟩, ⟨2⟩] ∧
      sys.Grants sys' ⟨0⟩ ⟨1⟩ ∧
      ∀ past later, ds = past ++ .asked 1 ⟨2⟩ ⟨0⟩ true :: later →
        keepsWaiting ⟨0⟩ later ⟨2⟩ = true → ⟨1⟩ ∈ waitingFor 1 ⟨0⟩ past := by
  obtain ⟨sys, sys', k, hsys, hmove, hround, hk, hqueue, hafter, hbefore⟩ : ∃ sys sys' k,
      System.run? tripleConfig (fun _ => true) twoWaitersMoves = some sys ∧
      sys.move? (fun _ => true) (.call (.unit ⟨0⟩) (.unlock ⟨0⟩)) = some sys' ∧
      sys.state.round = 1 ∧ sys.state.lock? ⟨0⟩ = some k ∧ k.queue = [⟨1⟩, ⟨2⟩] ∧
      sys'.state.ownerOf? ⟨0⟩ = some ⟨1⟩ ∧ sys.state.ownerOf? ⟨0⟩ = some ⟨0⟩ :=
    ⟨_, _, _, rfl, rfl, rfl, rfl, rfl, rfl, rfl⟩
  have hgrants : sys.Grants sys' ⟨0⟩ ⟨1⟩ := .inl ⟨hafter, by rw [hbefore]; decide⟩
  obtain ⟨⟨ds, hds⟩, hall⟩ := lock_grants_follow_requests (System.reachable_of_run? hsys)
  obtain ⟨hqueues, hgranted⟩ := hall ds hds
  refine ⟨sys, sys', ds, hsys, hmove, hds, ?_, hgrants, fun past later hsplit hwaits => ?_⟩
  · have hwaiting := (hqueues ⟨0⟩ k hk).symm.trans hqueue
    rwa [hround] at hwaiting
  · have hearlier := (hgranted _ _ sys' ⟨0⟩ ⟨1⟩ hmove hgrants).2 past later ⟨2⟩
    rw [hround] at hearlier
    exact (hearlier hsplit hwaits).resolve_left (by decide)

end RoundScheduler
