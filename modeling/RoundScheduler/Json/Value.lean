import RoundScheduler.Word

/-!
# JSON values

A value keeps what a reader of records needs: members in the order written, repeated names
included, and of a number whether it is a natural number written without sign, fraction or
exponent.
-/

namespace RoundScheduler.Json

/-- A number of a JSON text. -/
inductive Number where
  /-- Digits and nothing else. -/
  | natural (n : Nat)
  /-- Any other number, as it was written. -/
  | other (text : String)
  deriving DecidableEq

/-- A JSON value. A string is `none` when its escapes do not make up a text, which happens for
halves of surrogate pairs. -/
inductive Value where
  /-- The null value. -/
  | null
  /-- A truth value. -/
  | bool (b : Bool)
  /-- A number. -/
  | number (n : Number)
  /-- A string. -/
  | string (s : Option String)
  /-- An array. -/
  | array (items : List Value)
  /-- An object; its members stand in the order written. -/
  | object (members : List (Option String × Value))

namespace Value

/-- A natural number. -/
def nat (n : Nat) : Value := .number (.natural n)

/-- A text. -/
def text (s : String) : Value := .string (some s)

/-- An object with the given names. -/
def record (members : List (String × Value)) : Value :=
  .object (members.map fun (name, v) => (some name, v))

/-! ### Reading records -/

/-- The word that a value is, if it is one. -/
def word? : Value → Option Nat
  | .number (.natural n) => if Word.Fits n then some n else none
  | _ => none

/-- The truth value that a value is, if it is one. -/
def bool? : Value → Option Bool
  | .bool b => some b
  | _ => none

/-- The text that a value is, if it is one. -/
def text? : Value → Option String
  | .string s => s
  | _ => none

/-- The items of an array, read one by one. -/
def list? {α : Type} (item? : Value → Option α) : Value → Option (List α)
  | .array items => items.mapM item?
  | _ => none

/-- The value of the one member with a name. -/
def member? (members : List (Option String × Value)) (name : String) : Option Value :=
  match members.filter fun m => m.1 = some name with
  | [(_, v)] => some v
  | _ => none

/-- The values of the fields of a record, in the order of `names`. A record is written as an object
that has each name once, other members being ignored, or as an array of exactly its fields. -/
def fields? (names : List String) : Value → Option (List Value)
  | .array items => if items.length = names.length then some items else none
  | .object members =>
    if members.all fun m => m.1.isSome then names.mapM (member? members) else none
  | _ => none

end Value

end RoundScheduler.Json
