import RoundScheduler.Word

/-!
# Decimal numerals of words

A numeral is an optional plus sign and one or more ASCII digits, leading zeros allowed, whose value
is a 64-bit word. Reading goes from left to right: the first position at which the text stops being
a numeral decides the error, and at one position a foreign character counts before an overflow.
-/

namespace RoundScheduler

/-- Why a text is not the numeral of a word. -/
inductive NumeralError where
  /-- There is no text at all. -/
  | empty
  /-- A character that is no digit, or a sign with nothing behind it. -/
  | invalidDigit
  /-- The value is above the largest word. -/
  | tooLarge
  deriving DecidableEq

/-- The text of a numeral error. -/
def NumeralError.message : NumeralError → String
  | .empty => "cannot parse integer from empty string"
  | .invalidDigit => "invalid digit found in string"
  | .tooLarge => "number too large to fit in target type"

namespace Numeral

/-- The value of an ASCII digit. -/
def digit? (c : Char) : Option Nat :=
  if '0' ≤ c ∧ c ≤ '9' then some (c.toNat - '0'.toNat) else none

/-- Reads digits behind the value `acc` read so far. -/
def readFrom (acc : Nat) : List Char → Except NumeralError Nat
  | [] => .ok acc
  | c :: cs =>
    match digit? c with
    | none => .error .invalidDigit
    | some d => if acc * 10 + d ≤ Word.max then readFrom (acc * 10 + d) cs else .error .tooLarge

/-- Reads a numeral. -/
def read : List Char → Except NumeralError Nat
  | [] => .error .empty
  | ['+'] => .error .invalidDigit
  | '+' :: cs => readFrom 0 cs
  | cs => readFrom 0 cs

end Numeral

end RoundScheduler
