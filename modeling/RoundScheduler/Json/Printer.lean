import RoundScheduler.Json.Value

/-!
# Writing JSON

`Value.render` writes a value without blanks. Inside a string, quotes, backslashes and controls are
escaped, by a short escape where there is one; everything else stands for itself.
-/

namespace RoundScheduler.Json

/-- The digit of a number below sixteen. -/
def hexDigit (n : Nat) : Char :=
  if n < 10 then Char.ofNat ('0'.toNat + n) else Char.ofNat ('a'.toNat + (n - 10))

/-- The form of one character between the quotes. -/
def escapeChar (c : Char) : List Char :=
  if c = '"' then ['\\', '"']
  else if c = '\\' then ['\\', '\\']
  else if c = '\n' then ['\\', 'n']
  else if c = '\r' then ['\\', 'r']
  else if c = '\t' then ['\\', 't']
  else if c = Char.ofNat 8 then ['\\', 'b']
  else if c = Char.ofNat 12 then ['\\', 'f']
  else if c.toNat < 32 then ['\\', 'u', '0', '0', hexDigit (c.toNat / 16), hexDigit (c.toNat % 16)]
  else [c]

/-- A text between quotes. -/
def quote (s : List Char) : List Char := '"' :: s.flatMap escapeChar ++ ['"']

/-- A string of a value; what is no text is shown by the replacement character. -/
def quoteText : Option String → List Char
  | some s => quote s.toList
  | none => quote [Char.ofNat 0xFFFD]

/-- The form of a number. -/
def Number.render : Number → List Char
  | .natural n => Nat.toDigits 10 n
  | .other text => text.toList

mutual

/-- The form of a value without blanks. -/
def Value.render : Value → List Char
  | .null => ['n', 'u', 'l', 'l']
  | .bool true => ['t', 'r', 'u', 'e']
  | .bool false => ['f', 'a', 'l', 's', 'e']
  | .number n => n.render
  | .string s => quoteText s
  | .array [] => ['[', ']']
  | .array (v :: vs) => '[' :: v.render ++ renderItems vs
  | .object [] => ['\x7b', '\x7d']
  | .object ((name, v) :: ms) => '\x7b' :: quoteText name ++ ':' :: v.render ++ renderMembers ms

/-- The items behind the first one, and the end of the array. -/
def renderItems : List Value → List Char
  | [] => [']']
  | v :: vs => ',' :: v.render ++ renderItems vs

/-- The members behind the first one, and the end of the object. -/
def renderMembers : List (Option String × Value) → List Char
  | [] => ['\x7d']
  | (name, v) :: ms => ',' :: quoteText name ++ ':' :: v.render ++ renderMembers ms

end

/-- The text of a value without blanks. -/
def Value.compact (v : Value) : String := String.ofList v.render

/-! ### For people -/

/-- The start of a line at a depth. -/
def newLine (depth : Nat) : String := "\n" ++ "".pushn ' ' (2 * depth)

mutual

/-- The form of a value with one item or member per line, at a depth. -/
def Value.indented (depth : Nat) : Value → String
  | .array [] => "[]"
  | .array (v :: vs) =>
    "[" ++ newLine (depth + 1) ++ v.indented (depth + 1) ++ indentedItems depth vs
  | .object [] => "\x7b\x7d"
  | .object ((name, v) :: ms) =>
    "\x7b" ++ newLine (depth + 1) ++ String.ofList (quoteText name) ++ ": " ++
      v.indented (depth + 1) ++ indentedMembers depth ms
  | .null => "null"
  | .bool b => toString b
  | .number n => String.ofList n.render
  | .string s => String.ofList (quoteText s)

/-- The items behind the first one, and the end of the array. -/
def indentedItems (depth : Nat) : List Value → String
  | [] => newLine depth ++ "]"
  | v :: vs => "," ++ newLine (depth + 1) ++ v.indented (depth + 1) ++ indentedItems depth vs

/-- The members behind the first one, and the end of the object. -/
def indentedMembers (depth : Nat) : List (Option String × Value) → String
  | [] => newLine depth ++ "\x7d"
  | (name, v) :: ms =>
    "," ++ newLine (depth + 1) ++ String.ofList (quoteText name) ++ ": " ++
      v.indented (depth + 1) ++ indentedMembers depth ms

end

/-- The text of a value with one item or member per line. -/
def Value.pretty (v : Value) : String := v.indented 0

end RoundScheduler.Json
