/-!
# Machine words

Counts and sizes that enter from outside are 64-bit words. The scheduler itself counts in `Nat`;
the limit shows where a text is read, where a bound is computed, and where a word would overflow.
-/

namespace RoundScheduler

namespace Word

/-- The largest 64-bit word. -/
def max : Nat := Nat.pow 2 64 - 1

/-- A number that a 64-bit word can hold. -/
def Fits (n : Nat) : Prop := n ≤ max

instance (n : Nat) : Decidable (Fits n) := inferInstanceAs (Decidable (n ≤ max))

/-- The product of two words, clamped at the largest word. -/
def satMul (a b : Nat) : Nat := min (a * b) max

/-- The sum of two words, clamped at the largest word. -/
def satAdd (a b : Nat) : Nat := min (a + b) max

/-- The ways in which a computation can leave the range of words. -/
inductive Overflow where
  /-- A sum above the largest word. -/
  | add
  /-- A difference below zero. -/
  | subtract
  /-- A product above the largest word. -/
  | multiply
  /-- A row of words that no memory can hold. -/
  | capacity
  deriving DecidableEq

/-- The text of an overflow. -/
def Overflow.message : Overflow → String
  | .add => "attempt to add with overflow"
  | .subtract => "attempt to subtract with overflow"
  | .multiply => "attempt to multiply with overflow"
  | .capacity => "capacity overflow"

/-- The word after `n`, unless `n` is the largest one. -/
def succ? (n : Nat) : Except Overflow Nat :=
  if n < max then .ok (n + 1) else .error .add

/-- The difference of two words, unless it is negative. -/
def sub? (a b : Nat) : Except Overflow Nat :=
  if b ≤ a then .ok (a - b) else .error .subtract

/-- The product of two words, unless it is above the largest one. -/
def mul? (a b : Nat) : Except Overflow Nat :=
  if a * b ≤ max then .ok (a * b) else .error .multiply

/-- The number of words of eight bytes from which on a row of them is refused: its bytes would not
be counted by a signed word. -/
def rowLimit : Nat := Nat.pow 2 60

end Word

end RoundScheduler
