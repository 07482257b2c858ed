import RoundScheduler.Proofs.Transition

/-!
# Agendas

An agenda fixes everything about a run but the order in which things happen: the configuration, who
may become a primary, the locks that exist from the beginning, the units that somebody outside
submits one after another, and a routine for every unit. A system follows an agenda if every call
is the next one of its caller. Which stretch comes next, and how long the run is, stays open.
-/

namespace RoundScheduler

/-! ### Routines -/

/-- What a unit asks of the scheduler. -/
inductive Order where
  /-- An ordered step, for some purpose. -/
  | step (p : Purpose)
  /-- The release of a lock. -/
  | unlock (l : LockId)
  deriving DecidableEq

/-- The operation that an order calls. -/
def Order.operation : Order → Operation
  | step p => p.operation
  | unlock l => .unlock l

/-- A line of a routine. -/
structure Instruction where
  /-- What is asked. -/
  order : Order
  /-- Whether the unit fails if the order is refused. -/
  isRequired : Bool := false
  deriving DecidableEq

/-- How an order ended. -/
inductive Verdict where
  /-- It was carried out. -/
  | done
  /-- It was refused. -/
  | refused
  /-- It broke off, and so does the unit. -/
  | failed
  deriving DecidableEq

/-- How an operation ended, by its answer. -/
def Reply.verdict : Reply → Verdict
  | done | thread _ | staged _ | owner _ => .done
  | refused _ => .refused
  | panicked _ => .failed

/-- What a unit does, one instruction after the other. Then it ends, by returning or by failing, and
its thread retires. -/
abbrev Routine := List Instruction

/-- What is left of a routine once its first instruction ended. -/
def Routine.after : Routine → Verdict → Routine
  | [], _ => []
  | _ :: rest, .done => rest
  | i :: rest, .refused => if i.isRequired then [] else rest
  | _ :: _, .failed => []

/-- What a thread with a routine calls next. -/
def Routine.operation : Routine → Operation
  | [] => .retire
  | i :: _ => i.order.operation

/-! ### Following an agenda -/

/-- What is fixed about a run. -/
structure Agenda where
  /-- The configuration. -/
  config : Config
  /-- Who may become a primary. -/
  eligible : ThreadId → Bool
  /-- The number of locks. -/
  locks : Nat
  /-- The routines of the units, in the order in which they are submitted. -/
  units : List Routine

/-- The number of the unit for which a return names the thread, if it does. -/
def Return.unit? (t : ThreadId) : Return → Option Nat
  | ⟨.client _, .submit (.scripted i), .thread u⟩ => if u = t then some i else none
  | _ => none

namespace Agenda

/-- The routine of a unit, by the number of its submission. -/
def routine (w : Agenda) (i : Nat) : Routine := w.units.getD i []

/-- What is left to do for a thread after some returns, the latest first: the routine of its unit
without the instructions that ended. -/
def todo (w : Agenda) (t : ThreadId) : List Return → Routine
  | [] => []
  | r :: earlier =>
    match r.unit? t with
    | some i => w.routine i
    | none =>
      if r.agent = .unit t then (w.todo t earlier).after r.reply.verdict else w.todo t earlier

/-- How many submissions were answered. -/
def submissions (returns : List Return) : Nat := returns.countP (·.agent = .client 0)

/-- What somebody calls next: threads follow their routines, and one client submits the units. -/
def next? (w : Agenda) (sys : System) : Agent → Option Operation
  | .unit t => some (w.todo t sys.returns).operation
  | .client 0 =>
    if submissions sys.returns < w.units.length then
      some (.submit (.scripted (submissions sys.returns)))
    else none
  | .client _ => none

/-- Whether a move follows the agenda; locks are neither created nor dropped on the way. -/
def permits (w : Agenda) (sys : System) : Move → Bool
  | .call a op => w.next? sys a = some op
  | .advance | .enter _ => true
  | .newLock | .dropLock _ => false

/-- One system comes from another by a move that follows the agenda. -/
def Step (w : Agenda) (sys sys' : System) : Prop :=
  ∃ m, w.permits sys m = true ∧ sys.move? w.eligible m = some sys'

/-- The system with all its locks, of which nobody made use yet. -/
def start? (w : Agenda) : Option System :=
  System.run? w.config w.eligible (List.replicate w.locks .newLock)

/-- A system can be reached by following the agenda. -/
def Reaches (w : Agenda) (sys : System) : Prop :=
  ∃ start, w.start? = some start ∧ Relation.ReflTransGen w.Step start sys

/-- The system after some moves that follow the agenda, if they are possible. -/
def follow? (w : Agenda) (sys : System) : List Move → Option System
  | [] => some sys
  | m :: ms =>
    if w.permits sys m then (sys.move? w.eligible m).bind fun sys => w.follow? sys ms else none

/-- The system after some moves that follow the agenda from its start, if they are possible. -/
def run? (w : Agenda) (ms : List Move) : Option System :=
  w.start?.bind fun start => w.follow? start ms

variable {w : Agenda} {sys : System}

/-- Whoever follows an agenda makes moves that are possible without one. -/
lemma Reaches.reachable (h : w.Reaches sys) : System.Reachable w.config sys := by
  obtain ⟨start, hstart, hpath⟩ := h
  refine (System.reachable_of_run? hstart).path (hpath.lift id ?_)
  rintro sys sys' ⟨m, -, hm⟩
  exact ⟨w.eligible, m, hm⟩

/-- A step that follows the agenda leads to a system that can be reached by following it. -/
lemma Reaches.step {sys' : System} (h : w.Reaches sys) (hstep : w.Step sys sys') :
    w.Reaches sys' := by
  obtain ⟨start, hstart, hpath⟩ := h
  exact ⟨start, hstart, hpath.tail hstep⟩

lemma path_of_follow? {ms : List Move} {sys sys' : System} (h : w.follow? sys ms = some sys') :
    Relation.ReflTransGen w.Step sys sys' := by
  induction ms generalizing sys with
  | nil =>
    cases h
    exact .refl
  | cons m ms ih =>
    obtain ⟨hpermits, h⟩ := Option.ite_none_right_eq_some.mp h
    obtain ⟨next, hm, hms⟩ := Option.bind_eq_some_iff.mp h
    exact .head ⟨m, hpermits, hm⟩ (ih hms)

lemma reaches_of_run? {ms : List Move} (h : w.run? ms = some sys) : w.Reaches sys := by
  obtain ⟨start, hstart, hms⟩ := Option.bind_eq_some_iff.mp h
  exact ⟨start, hstart, path_of_follow? hms⟩

end Agenda

end RoundScheduler
