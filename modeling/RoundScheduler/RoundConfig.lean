import RoundScheduler.Identifier
import RoundScheduler.Text.Bracketed

/-!
# Round configurations

A round has a number of primaries and a total order over their slots. The scheduler keeps two
configurations: the staged one, which requests replace at any time, and the live one, a copy taken
when a round starts and consumed step by step as turns are taken.
-/

namespace RoundScheduler

/-- The number of primaries of a round, and the order of the steps that are left. -/
structure RoundConfig where
  /-- The number of primaries. -/
  primaries : Nat
  /-- The slots whose steps are left, the next one first. -/
  order : List Slot
  deriving DecidableEq, Inhabited

/-- Why a pair of numbers describes no round. -/
inductive EmptyRound where
  /-- Nobody could take a step. -/
  | noPrimaries
  /-- Nobody would have a step. -/
  | noSteps
  deriving DecidableEq

/-- The text of a refused round. -/
def EmptyRound.reason : EmptyRound → String
  | .noPrimaries => "a round needs at least one primary"
  | .noSteps => "every primary needs at least one step per round"

/-- Refuses rounds without primaries, then rounds without steps. -/
def EmptyRound.check (primaries steps : Nat) : Except EmptyRound Unit :=
  if primaries = 0 then .error .noPrimaries
  else if steps = 0 then .error .noSteps
  else .ok ()

/-- Why a pair of numbers gives no round-robin configuration. -/
inductive RoundError where
  /-- It describes no round. -/
  | empty (e : EmptyRound)
  /-- One pass over the slots is longer than a row of words can be. -/
  | overflow (o : Word.Overflow)
  deriving DecidableEq

namespace RoundConfig

/-- The round-robin order: `steps` passes over the slots below `primaries`. -/
def passes (primaries steps : Nat) : List Slot :=
  (List.replicate steps (List.range primaries)).flatten

/-- The round-robin configuration of `steps` passes over `primaries` slots. -/
def roundRobin (primaries steps : Nat) : Except RoundError RoundConfig :=
  match EmptyRound.check primaries steps with
  | .error e => .error (.empty e)
  | .ok _ =>
    if primaries < Word.rowLimit then .ok ⟨primaries, passes primaries steps⟩
    else .error (.overflow .capacity)

/-- The steps of each primary, as the length of an order that nobody consumed implies them. -/
def stepsPerPrimary (c : RoundConfig) : Nat := c.order.length / c.primaries

/-- The slot that may take the next step. -/
def head? (c : RoundConfig) : Option Slot := c.order.head?

/-- Whether a step of the slot is left. -/
def hasStepsFor (c : RoundConfig) (slot : Slot) : Bool := c.order.contains slot

/-- The configuration after the next step was taken. -/
def consume (c : RoundConfig) : RoundConfig := { c with order := c.order.tail }

/-- The configuration without the steps of a slot. -/
def strip (c : RoundConfig) (slot : Slot) : RoundConfig :=
  { c with order := c.order.filter (· ≠ slot) }

/-- The written form, `2 primaries, order [0, 1]`. -/
def text (c : RoundConfig) : String :=
  s!"{c.primaries} primaries, order {Text.bracketedNumbers c.order}"

/-- The form in dumps, with the names of the fields. -/
def debug (c : RoundConfig) : String :=
  s!"RoundConfig \x7b primaries: {c.primaries}, total_order: {Text.bracketedNumbers c.order} \x7d"

end RoundConfig

end RoundScheduler
