import RoundScheduler.Json.Value

/-!
# Reading JSON

`Value.parse?` reads a whole text and accepts strict JSON only: no comma at the end of a list, no
leading zero, no raw control in a string, nothing but blanks around the value.
-/

namespace RoundScheduler.Json

/-- The blanks between the parts of a text. -/
def isBlank (c : Char) : Bool := c = ' ' || c = '\n' || c = '\t' || c = '\r'

/-- The text behind its leading blanks. -/
def skipBlanks (cs : List Char) : List Char := cs.dropWhile isBlank

/-! ### Strings -/

/-- A part of a string as written: a character, or a code unit given by four digits. -/
inductive Piece where
  /-- A character. -/
  | char (c : Char)
  /-- A code unit of 16 bits. -/
  | unit (u : Nat)

/-- The value of a digit to base sixteen. -/
def hexValue? (c : Char) : Option Nat :=
  if '0' ≤ c ∧ c ≤ '9' then some (c.toNat - '0'.toNat)
  else if 'a' ≤ c ∧ c ≤ 'f' then some (c.toNat - 'a'.toNat + 10)
  else if 'A' ≤ c ∧ c ≤ 'F' then some (c.toNat - 'A'.toNat + 10)
  else none

/-- The code unit that four digits write. -/
def unit? (a b c d : Char) : Option Nat :=
  match hexValue? a, hexValue? b, hexValue? c, hexValue? d with
  | some a, some b, some c, some d => some (((a * 16 + b) * 16 + c) * 16 + d)
  | _, _, _, _ => none

/-- The character that a short escape stands for. -/
def shortEscape? (c : Char) : Option Char :=
  if c = '"' then some '"'
  else if c = '\\' then some '\\'
  else if c = '/' then some '/'
  else if c = 'b' then some (Char.ofNat 8)
  else if c = 'f' then some (Char.ofNat 12)
  else if c = 'n' then some '\n'
  else if c = 'r' then some '\r'
  else if c = 't' then some '\t'
  else none

/-- Puts a piece in front of the pieces of the rest. -/
def consPiece (p : Piece) (rest : List Piece × List Char) : List Piece × List Char :=
  (p :: rest.1, rest.2)

/-- Reads the pieces of a string behind its opening quote, up to the closing one. -/
def pieces? : List Char → Option (List Piece × List Char)
  | [] => none
  | '"' :: cs => some ([], cs)
  | '\\' :: 'u' :: a :: b :: c :: d :: cs => do
    let u ← unit? a b c d
    return consPiece (.unit u) (← pieces? cs)
  | '\\' :: c :: cs => do
    let e ← shortEscape? c
    return consPiece (.char e) (← pieces? cs)
  | c :: cs => if c.toNat < 32 || c = '\\' then none else (pieces? cs).map (consPiece (.char c))

/-- The text that pieces make up. A unit in the high surrogates needs one in the low surrogates
behind it; a low one alone stands for nothing. -/
def assemble? : List Piece → Option (List Char)
  | [] => some []
  | .char c :: ps => (assemble? ps).map (c :: ·)
  | .unit u :: ps =>
    if 0xD800 ≤ u ∧ u < 0xDC00 then
      match ps with
      | .unit v :: ps =>
        if 0xDC00 ≤ v ∧ v < 0xE000 then
          (assemble? ps).map (Char.ofNat (0x10000 + (u - 0xD800) * 0x400 + (v - 0xDC00)) :: ·)
        else none
      | _ => none
    else if 0xDC00 ≤ u ∧ u < 0xE000 then none
    else (assemble? ps).map (Char.ofNat u :: ·)

/-- Reads a string behind its opening quote. -/
def string? (cs : List Char) : Option (Option String × List Char) :=
  (pieces? cs).map fun (ps, rest) => ((assemble? ps).map String.ofList, rest)

/-! ### Numbers -/

/-- An ASCII digit. -/
def isDigit (c : Char) : Bool := '0' ≤ c && c ≤ '9'

/-- The value of a row of digits. -/
def digitsValue (ds : List Char) : Nat :=
  ds.foldl (fun n c => n * 10 + (c.toNat - '0'.toNat)) 0

/-- Reads one or more digits. -/
def digits? (cs : List Char) : Option (List Char × List Char) :=
  match cs.takeWhile isDigit with
  | [] => none
  | ds => some (ds, cs.dropWhile isDigit)

/-- Reads the digits before the point: a zero alone, or digits that start with another one. -/
def whole? : List Char → Option (List Char × List Char)
  | '0' :: cs => some (['0'], cs)
  | cs => digits? cs

/-- Reads the fraction, if there is one. -/
def fraction? : List Char → Option (List Char × List Char)
  | '.' :: cs => (digits? cs).map fun (ds, rest) => ('.' :: ds, rest)
  | cs => some ([], cs)

/-- Reads the sign of an exponent, if there is one. -/
def exponentSign : List Char → List Char × List Char
  | '+' :: cs => (['+'], cs)
  | '-' :: cs => (['-'], cs)
  | cs => ([], cs)

/-- Reads the exponent, if there is one. -/
def exponent? : List Char → Option (List Char × List Char)
  | c :: cs =>
    if c = 'e' || c = 'E' then
      let (sign, cs) := exponentSign cs
      (digits? cs).map fun (ds, rest) => (c :: sign ++ ds, rest)
    else some ([], c :: cs)
  | [] => some ([], [])

/-- Reads a number without its sign; the parts are the digits, the fraction and the exponent. -/
def unsigned? (cs : List Char) : Option ((List Char × List Char × List Char) × List Char) := do
  let (whole, cs) ← whole? cs
  let (fraction, cs) ← fraction? cs
  let (exponent, cs) ← exponent? cs
  return ((whole, fraction, exponent), cs)

/-- Reads a number. -/
def number? : List Char → Option (Number × List Char)
  | '-' :: cs => (unsigned? cs).map fun ((w, f, e), rest) =>
    (.other (String.ofList ('-' :: w ++ f ++ e)), rest)
  | cs => (unsigned? cs).map fun
    | ((w, [], []), rest) => (.natural (digitsValue w), rest)
    | ((w, f, e), rest) => (.other (String.ofList (w ++ f ++ e)), rest)

/-! ### Values -/

mutual

/-- Reads a value; each bracket and each item uses up one unit of `fuel`. -/
def value? (fuel : Nat) (cs : List Char) : Option (Value × List Char) :=
  match fuel with
  | 0 => none
  | fuel + 1 =>
    match skipBlanks cs with
    | 'n' :: 'u' :: 'l' :: 'l' :: cs => some (.null, cs)
    | 't' :: 'r' :: 'u' :: 'e' :: cs => some (.bool true, cs)
    | 'f' :: 'a' :: 'l' :: 's' :: 'e' :: cs => some (.bool false, cs)
    | '"' :: cs => (string? cs).map fun (s, rest) => (.string s, rest)
    | '[' :: cs =>
      match skipBlanks cs with
      | ']' :: cs => some (.array [], cs)
      | cs => (items? fuel cs).map fun (vs, rest) => (.array vs, rest)
    | '\x7b' :: cs =>
      match skipBlanks cs with
      | '\x7d' :: cs => some (.object [], cs)
      | cs => (members? fuel cs).map fun (ms, rest) => (.object ms, rest)
    | cs => (number? cs).map fun (n, rest) => (.number n, rest)

/-- Reads the items of an array, up to its closing bracket. -/
def items? (fuel : Nat) (cs : List Char) : Option (List Value × List Char) :=
  match fuel with
  | 0 => none
  | fuel + 1 =>
    match value? fuel cs with
    | none => none
    | some (v, cs) =>
      match skipBlanks cs with
      | ']' :: cs => some ([v], cs)
      | ',' :: cs => (items? fuel cs).map fun (vs, rest) => (v :: vs, rest)
      | _ => none

/-- Reads the members of an object, up to its closing bracket. -/
def members? (fuel : Nat) (cs : List Char) : Option (List (Option String × Value) × List Char) :=
  match fuel with
  | 0 => none
  | fuel + 1 =>
    match skipBlanks cs with
    | '"' :: cs =>
      match string? cs with
      | none => none
      | some (name, cs) =>
        match skipBlanks cs with
        | ':' :: cs =>
          match value? fuel cs with
          | none => none
          | some (v, cs) =>
            match skipBlanks cs with
            | '\x7d' :: cs => some ([(name, v)], cs)
            | ',' :: cs => (members? fuel cs).map fun (ms, rest) => ((name, v) :: ms, rest)
            | _ => none
        | _ => none
    | _ => none

end

/-- Reads a whole text. Every unit of fuel that reading uses up consumes a character or stands
behind a bracket, so twice the length is enough. -/
def Value.parse? (s : String) : Option Value :=
  let cs := s.toList
  match value? (2 * cs.length + 1) cs with
  | some (v, rest) => if skipBlanks rest = [] then some v else none
  | none => none

end RoundScheduler.Json
