import RoundScheduler.Proofs.Invariant

/-!
# What happens between threads and locks

A `Dealing` is something that happens between a thread and a lock: the thread asks for the lock, is
granted it, or is taken out of its queue. Every run comes with the list of its dealings, which are
told from what each move records and from the calls that take threads out of queues; from the list
alone follows who waits for a lock, and in which order. `Traffic` lists what a move can do to the
locks, with the dealings that it brings.
-/

namespace RoundScheduler

open State

/-! ### Dealings -/

/-- Something that happens between a thread and a lock. -/
inductive Dealing where
  /-- The thread takes a turn of a round inside `lock`, and finds the lock owned or not. -/
  | asked (round : Nat) (t : ThreadId) (l : LockId) (owned : Bool)
  /-- The thread is granted the lock. -/
  | granted (t : ThreadId) (l : LockId)
  /-- Somebody takes the thread out of the queue of the lock. -/
  | removed (t : ThreadId) (l : LockId)
  deriving DecidableEq

namespace Dealing

/-- The thread that has to wait for the lock `l` because of a dealing of a round. -/
def waiter? (round : Nat) (l : LockId) : Dealing → Option ThreadId
  | asked r t m owned => if round = r ∧ l = m ∧ owned = true then some t else none
  | _ => none

/-- Whether a dealing ends the wait of the thread `t` for the lock `l`. -/
def settles (t : ThreadId) (l : LockId) : Dealing → Bool
  | granted u m | removed u m => t = u && l = m
  | asked .. => false

end Dealing

/-- Whether none of some dealings ends the wait of the thread `t` for the lock `l`. -/
def keepsWaiting (l : LockId) (ds : List Dealing) (t : ThreadId) : Bool :=
  ds.all fun d => !d.settles t l

/-- The threads that, by the dealings of a run, took a turn of the round to ask for the lock `l`,
found it owned, and were neither granted it nor taken out of its queue since then; in the order of
these turns. -/
def waitingFor (round : Nat) (l : LockId) : List Dealing → List ThreadId
  | [] => []
  | d :: later =>
    (d.waiter? round l).toList.filter (keepsWaiting l later) ++ waitingFor round l later

section Lists

variable {round : Nat} {l : LockId} {t u : ThreadId}

/-- Without further dealings everybody keeps waiting. -/
@[simp] lemma keepsWaiting_nil : keepsWaiting l [] = fun _ => true := rfl

/-- Other requests do not end the wait. -/
@[simp] lemma keepsWaiting_asked {r : Nat} {m : LockId} {owned : Bool} (ds : List Dealing) :
    keepsWaiting l (.asked r u m owned :: ds) = keepsWaiting l ds := rfl

/-- The wait ends with a grant of the lock. -/
@[simp] lemma keepsWaiting_granted {m : LockId} (ds : List Dealing) :
    keepsWaiting l (.granted u m :: ds) = fun t => !(t = u && l = m) && keepsWaiting l ds t := rfl

/-- The wait ends if the request is removed. -/
@[simp] lemma keepsWaiting_removed {m : LockId} (ds : List Dealing) :
    keepsWaiting l (.removed u m :: ds) = fun t => !(t = u && l = m) && keepsWaiting l ds t := rfl

/-- Without dealings nobody waits. -/
@[simp] lemma waitingFor_nil : waitingFor round l [] = [] := rfl

/-- Who asks for an owned lock in this round waits, unless a later dealing ends the wait. -/
@[simp] lemma waitingFor_asked {r : Nat} {m : LockId} {owned : Bool} (ds : List Dealing) :
    waitingFor round l (.asked r u m owned :: ds) =
      (if round = r ∧ l = m ∧ owned = true ∧ keepsWaiting l ds u = true then [u] else []) ++
        waitingFor round l ds := by
  rw [waitingFor, Dealing.waiter?]
  grind

/-- A grant is not a request. -/
@[simp] lemma waitingFor_granted {m : LockId} (ds : List Dealing) :
    waitingFor round l (.granted u m :: ds) = waitingFor round l ds := rfl

/-- A removal is not a request. -/
@[simp] lemma waitingFor_removed {m : LockId} (ds : List Dealing) :
    waitingFor round l (.removed u m :: ds) = waitingFor round l ds := rfl

/-- A wait lasts through two lists of dealings if it lasts through both. -/
lemma keepsWaiting_append (past new : List Dealing) (t : ThreadId) :
    keepsWaiting l (past ++ new) t = (keepsWaiting l past t && keepsWaiting l new t) :=
  List.all_append

/-- Later dealings end the wait of some threads and add others at the end. -/
lemma waitingFor_append (past new : List Dealing) : waitingFor round l (past ++ new) =
    (waitingFor round l past).filter (keepsWaiting l new) ++ waitingFor round l new := by
  induction past with
  | nil => rfl
  | cons d past ih =>
    have hkeeps : (d.waiter? round l).toList.filter (keepsWaiting l (past ++ new)) =
        ((d.waiter? round l).toList.filter (keepsWaiting l past)).filter (keepsWaiting l new) := by
      rw [List.filter_filter]
      exact List.filter_congr fun t _ => by rw [keepsWaiting_append, Bool.and_comm]
    rw [List.cons_append, waitingFor, hkeeps, ih, waitingFor, List.filter_append, List.append_assoc]

/-- Nobody waits for a lock that nobody asked for in the round. -/
lemma waitingFor_eq_nil {ds : List Dealing} (h : ∀ t owned, .asked round t l owned ∉ ds) :
    waitingFor round l ds = [] := by
  induction ds with
  | nil => rfl
  | cons d later ih =>
    have hlater := ih fun t owned hmem => h t owned (List.mem_cons_of_mem d hmem)
    cases d with
    | asked r t m owned =>
      have hne : ¬(round = r ∧ l = m ∧ owned = true ∧ keepsWaiting l later t = true) := by
        rintro ⟨rfl, rfl, -⟩
        exact h t owned List.mem_cons_self
      rw [waitingFor_asked, if_neg hne, hlater]
      rfl
    | _ => exact hlater

/-- Whoever waits, and came after somebody else began to wait, is preceded by whoever was waiting
then and still is. -/
lemma eq_or_mem_of_head {past later : List Dealing} {rest : List ThreadId}
    (hhead : waitingFor round l (past ++ .asked round t l true :: later) = u :: rest)
    (hwaits : keepsWaiting l later t = true) : t = u ∨ u ∈ waitingFor round l past := by
  have hasked : waitingFor round l (.asked round t l true :: later) =
      t :: waitingFor round l later := by
    simp [hwaits]
  rw [waitingFor_append, hasked] at hhead
  cases hpast : (waitingFor round l past).filter
      (keepsWaiting l (.asked round t l true :: later)) with
  | nil =>
    rw [hpast] at hhead
    exact .inl (List.cons.inj hhead).1
  | cons v earlier =>
    rw [hpast] at hhead
    obtain rfl : v = u := (List.cons.inj hhead).1
    exact .inr (List.mem_filter.mp (hpast ▸ List.mem_cons_self)).1

end Lists

/-! ### The dealings of a run -/

/-- The owner of a lock, if it exists and has one. -/
def State.ownerOf? (s : State) (l : LockId) : Option ThreadId := (s.lock? l).bind (·.owner)

/-- Who takes whom out of the queue of a lock by a move. -/
def Move.removal? : Move → Option Dealing
  | .call _ (.unqueue l t) => some (.removed t l)
  | _ => none

namespace System

/-- The operation that a thread is in. -/
def operation? (sys : System) (t : ThreadId) : Option Operation :=
  (sys.calls.get? (.unit t)).map Call.operation

/-- What an event that is recorded next means between a thread and a lock: a turn of a thread inside
`lock` asks for the lock. -/
def dealing? (sys : System) : Event → Option Dealing
  | .turn k t _ =>
    match sys.operation? t with
    | some (.lock l) => some (.asked k t l (sys.state.ownerOf? l).isSome)
    | _ => none
  | .lockAcquired _ l t _ => some (.granted t l)
  | _ => none

/-- The events that a move to another system records. -/
def recorded (sys sys' : System) : List Event := sys'.state.events.drop sys.state.events.length

/-- What happens between threads and locks by a move to another system. -/
def dealings (sys : System) (m : Move) (sys' : System) : List Dealing :=
  m.removal?.toList ++ (sys.recorded sys').filterMap sys.dealing?

/-- A run from a scheduler that nobody used yet, with its dealings, the earliest first. -/
inductive Dealt (c : Config) : System → List Dealing → Prop
  /-- Nothing happened yet. -/
  | start {sys : System} (h : initial c = .ok sys) : Dealt c sys []
  /-- One more move. -/
  | step {sys sys' : System} {ds : List Dealing} {eligible : ThreadId → Bool} {m : Move}
    (h : Dealt c sys ds) (hm : sys.move? eligible m = some sys') :
    Dealt c sys' (ds ++ sys.dealings m sys')

/-- A move to another system grants the lock `l` to the thread `t`: the thread becomes its owner, or
the grant is recorded. -/
def Grants (sys sys' : System) (l : LockId) (t : ThreadId) : Prop :=
  (sys'.state.ownerOf? l = some t ∧ sys.state.ownerOf? l ≠ some t) ∨
    ∃ round queued, .lockAcquired round l t queued ∈ sys.recorded sys'

variable {c : Config} {sys sys' : System}

/-- A system with dealings is reachable. -/
lemma Dealt.reachable {ds : List Dealing} (h : Dealt c sys ds) : Reachable c sys := by
  induction h with
  | start h => exact ⟨_, h, .refl⟩
  | step _ hm ih => exact ih.step ⟨_, _, hm⟩

/-- Every system that can be reached is reached by a run that has dealings. -/
lemma Reachable.exists_dealt (h : Reachable c sys) : ∃ ds, Dealt c sys ds := by
  induction h using Reachable.induction with
  | initial sys hstart => exact ⟨[], .start hstart⟩
  | step sys sys' _ hs ih =>
    obtain ⟨ds, hds⟩ := ih
    obtain ⟨eligible, m, hm⟩ := hs
    exact ⟨_, hds.step hm⟩

/-- The turn of a thread in a request for a lock is that request. -/
lemma dealing?_turn_of_lock {k : Nat} {t : ThreadId} {l : LockId} {slot : Slot}
    (h : sys.operation? t = some (.lock l)) :
    sys.dealing? (.turn k t slot) = some (.asked k t l (sys.state.ownerOf? l).isSome) := by
  rw [dealing?, h]

/-- The turn of a thread in another operation deals with no lock. -/
lemma dealing?_turn_eq_none {k : Nat} {t : ThreadId} {slot : Slot}
    (h : ∀ l, sys.operation? t ≠ some (.lock l)) : sys.dealing? (.turn k t slot) = none := by
  rw [dealing?]
  split
  · next l hl => exact absurd hl (h l)
  · rfl

/-- What was recorded between two systems is what the second one has more. -/
lemma recorded_eq {new : List Event} (h : sys'.state.events = sys.state.events ++ new) :
    sys.recorded sys' = new := by
  rw [recorded, h, List.drop_left]

/-- A grant that is recorded is a dealing. -/
lemma granted_mem_dealings {m : Move} {round : Nat} {l : LockId} {t : ThreadId} {queued : Bool}
    (h : .lockAcquired round l t queued ∈ sys.recorded sys') :
    .granted t l ∈ sys.dealings m sys' :=
  List.mem_append_right _ (List.mem_filterMap.mpr ⟨_, h, rfl⟩)

/-- The dealings of a move are the removal that it makes and those among what it records. -/
lemma dealings_eq {m : Move} {new : List Event}
    (h : sys'.state.events = sys.state.events ++ new) :
    sys.dealings m sys' = m.removal?.toList ++ new.filterMap sys.dealing? := by
  rw [dealings, recorded_eq h]

/-- The turn by which a thread asks for a lock says whether the lock is owned. -/
lemma dealings_of_request {m : Move} {l : LockId} {k : LockState} {slot : Slot} {rest : List Event}
    (hop : sys.operation? t = some (.lock l)) (hk : sys.state.lock? l = some k)
    (hremoval : m.removal? = none)
    (hevents : sys'.state.events = sys.state.events ++ .turn sys.state.round t slot :: rest) :
    sys.dealings m sys' =
      .asked sys.state.round t l k.owner.isSome :: rest.filterMap sys.dealing? := by
  have howner : sys.state.ownerOf? l = k.owner := by simp [ownerOf?, hk]
  rw [dealings_eq hevents, hremoval, List.filterMap_cons_some (dealing?_turn_of_lock hop), howner]
  rfl

/-! ### What a move does to the queues -/

/-- What a move does to locks and queues, with the dealings that it brings. -/
inductive Traffic (sys : System) (m : Move) (sys' : System) : List Dealing → Prop
  /-- All queues stay as they are. Owners let go at most, and locks that are created are free. -/
  | quiet (hround : sys'.state.round = sys.state.round)
    (hnext : sys.state.nextLock.raw ≤ sys'.state.nextLock.raw)
    (hlock : ∀ l k', sys'.state.lock? l = some k' → (l = sys.state.nextLock ∧ k' = {}) ∨
      ∃ k, sys.state.lock? l = some k ∧ k'.queue = k.queue ∧
        (k'.owner = k.owner ∨ k'.owner = none)) : Traffic sys m sys' []
  /-- A round begins, and all queues are empty. -/
  | nextRound (hround : sys'.state.round = sys.state.round + 1)
    (hnext : sys'.state.nextLock = sys.state.nextLock)
    (hlock : ∀ l k', sys'.state.lock? l = some k' → k'.queue = [] ∧
      ∃ k, sys.state.lock? l = some k ∧ k'.owner = k.owner) : Traffic sys m sys' []
  /-- A thread takes a turn to ask for a lock that is owned. -/
  | queued (t : ThreadId) (l : LockId) (k : LockState) (slot : Slot)
    (hk : sys.state.lock? l = some k) (howned : k.owner ≠ none)
    (hstate : sys'.state = (sys.state.afterTurn t slot).enqueue l t) :
    Traffic sys m sys' [.asked sys.state.round t l true]
  /-- A thread takes a turn to ask for a lock that is free, and is granted it. -/
  | granted (t : ThreadId) (l : LockId) (k : LockState) (slot : Slot)
    (hk : sys.state.lock? l = some k) (hfree : k.owner = none)
    (hop : sys.operation? t = some (.lock l))
    (hstate : sys'.state = (sys.state.afterTurn t slot).grant l t) :
    Traffic sys m sys' [.asked sys.state.round t l false, .granted t l]
  /-- The owner of a lock releases it to the head of its queue. -/
  | handedOver (t : ThreadId) (l : LockId) (k : LockState) (next : ThreadId)
    (rest : List ThreadId) (hk : sys.state.lock? l = some k) (howner : k.owner = some t)
    (hqueue : k.queue = next :: rest) (hm : m = .call (.unit t) (.unlock l))
    (hstate : sys'.state = sys.state.handOver l next) : Traffic sys m sys' [.granted next l]
  /-- A thread is taken out of the queue that it is linked to. -/
  | unlinked (t : ThreadId) (l : LockId) (hlink : sys.state.linkOf? t = some l)
    (hstate : sys'.state = sys.state.detach [t]) : Traffic sys m sys' [.removed t l]
  /-- A thread is taken out of a queue that it is not linked to. -/
  | forgotten (t : ThreadId) (l : LockId) (hstate : sys'.state = sys.state.forget l t) :
    Traffic sys m sys' [.removed t l]

namespace Traffic

variable {m : Move}

/-- A move that records nothing about locks and leaves all queues alone. -/
lemma of_quiet (new : List Event) (hremoval : m.removal? = none)
    (hevents : sys'.state.events = sys.state.events ++ new)
    (hnew : ∀ e ∈ new, sys.dealing? e = none) (hround : sys'.state.round = sys.state.round)
    (hnext : sys.state.nextLock.raw ≤ sys'.state.nextLock.raw)
    (hlock : ∀ l k', sys'.state.lock? l = some k' → (l = sys.state.nextLock ∧ k' = {}) ∨
      ∃ k, sys.state.lock? l = some k ∧ k'.queue = k.queue ∧
        (k'.owner = k.owner ∨ k'.owner = none)) : Traffic sys m sys' (sys.dealings m sys') := by
  rw [dealings_eq hevents, hremoval, List.filterMap_eq_nil_iff.mpr hnew]
  exact .quiet hround hnext hlock

/-- A move that leaves all locks alone and records nothing about them. -/
lemma of_same (new : List Event) (hremoval : m.removal? = none)
    (hevents : sys'.state.events = sys.state.events ++ new)
    (hnew : ∀ e ∈ new, sys.dealing? e = none) (hround : sys'.state.round = sys.state.round)
    (hnext : sys'.state.nextLock = sys.state.nextLock)
    (hlock : ∀ l, sys'.state.lock? l = sys.state.lock? l) :
    Traffic sys m sys' (sys.dealings m sys') :=
  of_quiet new hremoval hevents hnew hround (Nat.le_of_eq (by rw [hnext])) fun l k' hk' =>
    .inr ⟨k', (hlock l).symm.trans hk', rfl, .inl rfl⟩

/-- A move that leaves all locks alone and records nothing. -/
lemma of_silent (hremoval : m.removal? = none) (hevents : sys'.state.events = sys.state.events)
    (hround : sys'.state.round = sys.state.round)
    (hnext : sys'.state.nextLock = sys.state.nextLock)
    (hlock : ∀ l, sys'.state.lock? l = sys.state.lock? l) :
    Traffic sys m sys' (sys.dealings m sys') :=
  of_same [] hremoval (hevents.trans (List.append_nil _).symm) (List.forall_mem_nil _) hround hnext
    hlock

/-- A move that begins a round. -/
lemma of_begun (hremoval : m.removal? = none) (hsound : sys'.state.Sound)
    (hbegun : Begun sys.state sys'.state) (hnext : sys'.state.nextLock = sys.state.nextLock)
    (hlock : ∀ l k', sys'.state.lock? l = some k' →
      ∃ k, sys.state.lock? l = some k ∧ k'.owner = k.owner) :
    Traffic sys m sys' (sys.dealings m sys') := by
  have hnothing : sys'.state.events = sys.state.events ++ [] := by simpa using hbegun.events
  rw [dealings_eq hnothing, hremoval]
  refine .nextRound hbegun.round hnext fun l k' hk' => ⟨?_, hlock l k' hk'⟩
  -- Only primaries are in queues, and there are none yet.
  refine List.eq_nil_iff_forall_not_mem.mpr fun t ht => ?_
  have hlink := (hsound.queues.linked t l).mpr ⟨k', hk', ht⟩
  simpa [hbegun.primaries] using hsound.seating.mem_primaries_of_linked hlink

end Traffic

end System

namespace Invariant

variable {sys sys' : System} {t : ThreadId} {m : Move}

/-- What a thread does at its place, in terms of locks and queues. -/
lemma traffic_stretch {ph : Phase} {eligible : ThreadId → Bool} {o : Outcome}
    (hcall : sys.calls.get? (.unit t) = some ⟨ph.operation, .thread t ph⟩)
    (hsound : sys'.state.Sound) (hstate : sys'.state = o.state sys.state)
    (ho : Stretch eligible sys.state t ph o) :
    System.Traffic sys .advance sys' (sys.dealings .advance sys') := by
  have hoperation : sys.operation? t = some ph.operation := by
    rw [System.operation?, hcall]
    rfl
  have hturn : ∀ slot, (∀ l, ph.operation ≠ .lock l) →
      sys.dealing? (.turn sys.state.round t slot) = none := fun slot hne =>
    System.dealing?_turn_eq_none fun l hl => hne l (Option.some_inj.mp (hoperation.symm.trans hl))
  cases ho with
  | bootstrap p hround | bootstrapRetirement hround =>
    refine .of_begun rfl hsound (hstate ▸ begun_beginRound) (by simp [hstate, Outcome.state])
      fun l k' hk' => ?_
    rw [hstate] at hk'
    exact ⟨k', lock?_beginRound.symm.trans hk', rfl⟩
  | closed k hfull hstuck =>
    refine .of_begun rfl hsound (hstate ▸ begun_nextRound) (by simp [hstate, Outcome.state])
      fun l k' hk' => ?_
    rw [hstate] at hk'
    obtain ⟨k, hk, rfl⟩ := Option.map_eq_some_iff.mp (lock?_nextRound.symm.trans hk')
    exact ⟨k, hk, rfl⟩
  | queued l k slot hslot hhead hk howned =>
    have hevents : sys'.state.events = sys.state.events ++ [.turn sys.state.round t slot] := by
      rw [hstate]
      exact events_afterTurn slot
    have hnew : sys.dealings .advance sys' = [.asked sys.state.round t l true] := by
      rw [System.dealings_of_request hoperation hk rfl hevents,
        Option.isSome_iff_ne_none.mpr howned]
      rfl
    exact hnew ▸ .queued t l k slot hk howned hstate
  | granted l k slot hslot hhead hk hfree =>
    have hevents : sys'.state.events = sys.state.events ++
        [.turn sys.state.round t slot, .lockAcquired sys.state.round l t false] := by
      rw [hstate]
      exact events_granted slot
    have hnew : sys.dealings .advance sys' =
        [.asked sys.state.round t l false, .granted t l] := by
      rw [System.dealings_of_request hoperation hk rfl hevents, hfree]
      rfl
    exact hnew ▸ .granted t l k slot hk hfree hoperation hstate
  | turn slot | refused r slot | overflowed r slot =>
    have hnew := hturn slot (by simp [Phase.operation, Purpose.operation])
    refine .of_same [.turn sys.state.round t slot] rfl ?_ (by simpa using hnew) ?_ ?_ fun l => ?_
    all_goals simp [hstate, Outcome.state]
  | staged r slot c hslot hhead hc =>
    refine .of_same [.turn sys.state.round t slot, .reconfigured sys.state.round
      (r.resolve sys.state.staged).1 (r.resolve sys.state.staged).2] rfl ?_ ?_ ?_ ?_ fun l => ?_
    · rw [hstate]
      exact events_staged ..
    · simpa [System.dealing?] using hturn slot (by simp [Phase.operation, Purpose.operation])
    · rw [hstate]
      exact round_afterTurn slot
    · rw [hstate]
      exact nextLock_afterTurn slot
    · simp [hstate, Outcome.state]
  | retired slot hslot =>
    refine .of_same [.terminated sys.state.round t] rfl ?_ (by simp [System.dealing?]) ?_ ?_
      fun l => ?_
    all_goals simp [hstate, Outcome.state]
  | filled index plan k hlen =>
    refine .of_same [.roundStarted sys.state.round sys.state.primaries plan.order] rfl ?_
      (by simp [System.dealing?]) ?_ ?_ fun l => ?_
    · simp [hstate, Outcome.state]
    all_goals rw [hstate]; rfl
  | _ =>
    refine .of_silent rfl ?_ ?_ ?_ fun l => ?_
    all_goals rw [hstate]; rfl

/-- What the call of an operation does at once, in terms of locks and queues. -/
lemma traffic_call {a : Agent} {op : Operation} {o : Outcome}
    (hstate : sys'.state = o.state sys.state) (ho : Opening sys.state a op o) :
    System.Traffic sys (.call a op) sys' (sys.dealings (.call a op) sys') := by
  cases ho with
  | handedOver t l k next rest hk howner hqueue =>
    have hevents : sys'.state.events =
        sys.state.events ++ [.lockAcquired sys.state.round l next true] := by
      rw [hstate]
      exact events_handOver
    have hnew : sys.dealings (.call (.unit t) (.unlock l)) sys' = [.granted next l] := by
      rw [System.dealings_eq hevents]
      rfl
    exact hnew ▸ .handedOver t l k next rest hk howner hqueue rfl hstate
  | unlinked a l t hlink =>
    have hevents : sys'.state.events = sys.state.events ++ [] := by
      rw [hstate, List.append_nil]
      rfl
    have hnew : sys.dealings (.call a (.unqueue l t)) sys' = [.removed t l] :=
      System.dealings_eq hevents
    exact hnew ▸ .unlinked t l hlink hstate
  | forgotten a l t k hk hlink =>
    have hevents : sys'.state.events = sys.state.events ++ [] := by
      rw [hstate, List.append_nil]
      rfl
    have hnew : sys.dealings (.call a (.unqueue l t)) sys' = [.removed t l] :=
      System.dealings_eq hevents
    exact hnew ▸ .forgotten t l hstate
  | released t l k hk howner hqueue =>
    refine .of_quiet [] rfl ?_ (List.forall_mem_nil _) ?_ ?_ fun m k' hk' => .inr ?_
    · rw [hstate, List.append_nil]
      rfl
    · rw [hstate]
      rfl
    · rw [hstate]
      exact Nat.le_refl _
    · rw [hstate] at hk'
      obtain ⟨k, hk, rfl⟩ := Option.map_eq_some_iff.mp (lock?_release.symm.trans hk')
      refine ⟨k, hk, rfl, ?_⟩
      by_cases hm : m = l <;> simp [hm]
  | _ =>
    refine .of_silent rfl ?_ ?_ ?_ fun l => ?_
    all_goals rw [hstate]; rfl

/-- Every move does one of the listed things to locks and queues. -/
theorem traffic (h : Invariant sys) {eligible : ThreadId → Bool}
    (hm : sys.move? eligible m = some sys') :
    System.Traffic sys m sys' (sys.dealings m sys') := by
  have hsound : sys'.state.Sound := (h.step ⟨eligible, m, hm⟩).sound
  cases h.transition hm with
  | call a op o hinside hidle halive hlocks ho => exact traffic_call (System.state_apply ..) ho
  | stretch t op ph o hinside hcall hop ho =>
    subst hop
    exact traffic_stretch hcall hsound (System.state_apply ..) ho
  | intake a op p o hinside hcall ho =>
    refine .of_silent rfl ?_ ?_ ?_ fun l => ?_
    · rw [System.state_apply]
      cases ho <;> simp [Outcome.state]
    · rw [System.state_apply]
      cases ho <;> rfl
    · rw [System.state_apply]
      cases ho <;> rfl
    · rw [System.state_apply]
      exact ho.lock?_eq l
  | enter a call hinside hcall =>
    exact .of_silent rfl rfl rfl rfl fun l => rfl
  | newLock hinside =>
    refine .of_quiet [] rfl (List.append_nil _).symm (List.forall_mem_nil _) rfl (Nat.le_succ _)
      fun l k' hk' => ?_
    rw [lock?_registerLock] at hk'
    split at hk'
    · next hl => exact .inl ⟨hl, (Option.some_inj.mp hk').symm⟩
    · exact .inr ⟨k', hk', rfl, .inl rfl⟩
  | dropLock l hinside hl hunused =>
    refine .of_quiet [] rfl ?_ (List.forall_mem_nil _) ?_ ?_ fun m k' hk' => .inr ?_
    · rw [List.append_nil]
      exact events_dropLock hl
    · rw [dropLock_eq hl]
    · exact Nat.le_of_eq (by rw [dropLock_eq hl])
    · rw [lock?_dropLock hl] at hk'
      split at hk'
      · cases hk'
      · exact ⟨k', hk', rfl, .inl rfl⟩

end Invariant

end RoundScheduler
