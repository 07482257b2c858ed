import Mathlib.Tactic.Lemma
import RoundScheduler.Json.Parser
import RoundScheduler.Json.Printer

/-!
# Reading what was written

Writing a value without blanks and reading it back gives the value, as long as its numbers are
natural and its strings are texts. The reader is told nothing about where a part ends: digits end
where something follows that is no part of a number, strings at the first quote that is not escaped,
and the fuel of the reader lasts because reading a bracket or an item uses up at most two units of
it for each character that it consumes.
-/

namespace RoundScheduler.Json

/-! ### What may follow a value -/

/-- The text behind a value: its end, or what ends an item, an array or an object. -/
inductive Closes : List Char → Prop
  | nil : Closes []
  | comma (cs : List Char) : Closes (',' :: cs)
  | bracket (cs : List Char) : Closes (']' :: cs)
  | brace (cs : List Char) : Closes ('\x7d' :: cs)

variable {rest : List Char}

/-! ### Numbers -/

/-- The digits of a number are digits to the reader. -/
lemma isDigit_of_mem_toDigits {n : Nat} {c : Char} (hc : c ∈ Nat.toDigits 10 n) :
    isDigit c = true := by
  have hdigit := Nat.isDigit_of_mem_toDigits (by decide) (by decide) hc
  simpa [Char.isDigit, isDigit, Char.le_def] using hdigit

/-- The numeral of a positive number has no leading zero. -/
lemma head?_toDigits {n : Nat} (hn : n ≠ 0) : (Nat.toDigits 10 n).head? ≠ some '0' := by
  induction n using Nat.strongRecOn with
  | ind n ih =>
    rw [Nat.toDigits_eq_if (by decide)]
    split
    · simpa [Nat.digitChar_eq_zero] using hn
    · next hle =>
      have hquotient : n / 10 ≠ 0 := by omega
      have hhead := ih (n / 10) (by omega) hquotient
      cases hds : Nat.toDigits 10 (n / 10) with
      | nil => exact absurd hds Nat.toDigits_ne_nil
      | cons d ds =>
        rw [hds] at hhead
        exact hhead

/-- The value of the digits of a number is the number. -/
lemma digitsValue_toDigits (n : Nat) : digitsValue (Nat.toDigits 10 n) = n := by
  have hvalue := Nat.ofDigitChars_toDigits (n := n) (b := 10) (by decide) (by decide)
  rw [Nat.ofDigitChars_eq_foldl] at hvalue
  simpa [digitsValue, Nat.mul_comm] using hvalue

/-- The reader takes the digits of a number and no more. -/
lemma digits?_toDigits (h : Closes rest) (n : Nat) :
    digits? (Nat.toDigits 10 n ++ rest) = some (Nat.toDigits 10 n, rest) := by
  have hdigits : ∀ c ∈ Nat.toDigits 10 n, isDigit c = true := fun _ => isDigit_of_mem_toDigits
  have htake : rest.takeWhile isDigit = [] := by cases h <;> rfl
  have hdrop : rest.dropWhile isDigit = rest := by cases h <;> rfl
  rw [digits?, List.takeWhile_append_of_pos hdigits, List.dropWhile_append_of_pos hdigits, htake,
    hdrop, List.append_nil]
  cases hds : Nat.toDigits 10 n with
  | nil => exact absurd hds Nat.toDigits_ne_nil
  | cons d ds => rfl

/-- The digits of a number have no leading zero, so they read as a whole part. -/
lemma whole?_toDigits (h : Closes rest) (n : Nat) :
    whole? (Nat.toDigits 10 n ++ rest) = some (Nat.toDigits 10 n, rest) := by
  by_cases hn : n = 0
  · subst hn
    rfl
  · have hdigits := digits?_toDigits h n
    have hhead := head?_toDigits hn
    cases hds : Nat.toDigits 10 n with
    | nil => exact absurd hds Nat.toDigits_ne_nil
    | cons d ds =>
      rw [hds] at hdigits hhead
      have hd : d ≠ '0' := by simpa using hhead
      rw [List.cons_append, whole?]
      · exact hdigits
      · simpa using hd

/-- The digits of a number read as a number without fraction and exponent. -/
lemma unsigned?_toDigits (h : Closes rest) (n : Nat) :
    unsigned? (Nat.toDigits 10 n ++ rest) = some ((Nat.toDigits 10 n, [], []), rest) := by
  have hfraction : fraction? rest = some ([], rest) := by cases h <;> rfl
  have hexponent : exponent? rest = some ([], rest) := by cases h <;> rfl
  simp [unsigned?, whole?_toDigits h, hfraction, hexponent]

/-- The numeral of a number reads back. -/
lemma number?_toDigits (h : Closes rest) (n : Nat) :
    number? (Nat.toDigits 10 n ++ rest) = some (.natural n, rest) := by
  have hunsigned := unsigned?_toDigits h n
  cases hds : Nat.toDigits 10 n with
  | nil => exact absurd hds Nat.toDigits_ne_nil
  | cons d ds =>
    have hd : d ≠ '-' := by
      rintro rfl
      have hdigit := isDigit_of_mem_toDigits (n := n) (c := '-') (by simp [hds])
      exact absurd hdigit (by decide)
    rw [hds, List.cons_append] at hunsigned
    rw [List.cons_append, number?]
    · rw [hunsigned, ← hds]
      exact congrArg (fun m => some (Number.natural m, rest)) (digitsValue_toDigits n)
    · simpa using hd

/-! ### Texts -/

/-- The piece that the form of a character reads as. -/
def pieceOf (c : Char) : Piece :=
  if c.toNat < 32 ∧ c ∉ ['\n', '\r', '\t', Char.ofNat 8, Char.ofNat 12] then .unit c.toNat
  else .char c

/-- The digits of a control read as its number. -/
lemma unit?_hexDigit :
    ∀ n < 32, unit? '0' '0' (hexDigit (n / 16)) (hexDigit (n % 16)) = some n := by
  decide

/-- A short escape reads as the character that it stands for. -/
lemma pieces?_short {c e : Char} (he : shortEscape? e = some c) (hu : e ≠ 'u') (cs : List Char) :
    pieces? ('\\' :: e :: cs) = (pieces? cs).map (consPiece (.char c)) := by
  rw [pieces?]
  · rw [he]
    cases pieces? cs <;> rfl
  · simp [hu]

/-- A long escape reads as its code unit. -/
lemma pieces?_unit {a b c d : Char} {u : Nat} (hu : unit? a b c d = some u) (cs : List Char) :
    pieces? ('\\' :: 'u' :: a :: b :: c :: d :: cs) =
      (pieces? cs).map (consPiece (.unit u)) := by
  rw [pieces?, hu]
  cases pieces? cs <;> rfl

/-- A character that needs no escape reads as itself. -/
lemma pieces?_plain {c : Char} (hquote : c ≠ '"') (hslash : c ≠ '\\') (hc : ¬ c.toNat < 32)
    (cs : List Char) : pieces? (c :: cs) = (pieces? cs).map (consPiece (.char c)) := by
  rw [pieces?]
  · simp [hslash, hc]
  all_goals simp [hquote, hslash]

/-- The form of a character reads as one piece. -/
lemma pieces?_escapeChar (c : Char) (cs : List Char) :
    pieces? (escapeChar c ++ cs) = (pieces? cs).map (consPiece (pieceOf c)) := by
  have hshort : ∀ e, shortEscape? e = some c → e ≠ 'u' → pieceOf c = .char c →
      pieces? (['\\', e] ++ cs) = (pieces? cs).map (consPiece (pieceOf c)) := fun e he hu hc => by
    rw [hc]
    exact pieces?_short he hu cs
  unfold escapeChar
  split
  · next h => exact hshort '"' (by rw [h]; rfl) (by decide) (by rw [h]; rfl)
  split
  · next h => exact hshort '\\' (by rw [h]; rfl) (by decide) (by rw [h]; rfl)
  split
  · next h => exact hshort 'n' (by rw [h]; rfl) (by decide) (by rw [h]; rfl)
  split
  · next h => exact hshort 'r' (by rw [h]; rfl) (by decide) (by rw [h]; rfl)
  split
  · next h => exact hshort 't' (by rw [h]; rfl) (by decide) (by rw [h]; rfl)
  split
  · next h => exact hshort 'b' (by rw [h]; rfl) (by decide) (by rw [h]; rfl)
  split
  · next h => exact hshort 'f' (by rw [h]; rfl) (by decide) (by rw [h]; rfl)
  next hquote hslash hn hr ht hb hf =>
  split
  · next hc =>
    have hpiece : pieceOf c = .unit c.toNat := if_pos ⟨hc, by simp [hn, hr, ht, hb, hf]⟩
    rw [hpiece]
    exact pieces?_unit (unit?_hexDigit c.toNat hc) cs
  · next hc =>
    have hpiece : pieceOf c = .char c := if_neg fun h => hc h.1
    rw [hpiece]
    exact pieces?_plain hquote hslash hc cs

/-- The form of a text reads as the pieces of its characters. -/
lemma pieces?_quoted (s : List Char) :
    pieces? (s.flatMap escapeChar ++ '"' :: rest) = some (s.map pieceOf, rest) := by
  induction s with
  | nil => rfl
  | cons c s ih =>
    rw [List.flatMap_cons, List.append_assoc, pieces?_escapeChar, ih]
    rfl

/-- The pieces of the characters of a text make up the text. -/
lemma assemble?_pieceOf (s : List Char) : assemble? (s.map pieceOf) = some s := by
  induction s with
  | nil => rfl
  | cons c s ih =>
    rw [List.map_cons, pieceOf]
    split
    · next hc =>
      have hhigh : ¬ (0xD800 ≤ c.toNat ∧ c.toNat < 0xDC00) := by omega
      have hlow : ¬ (0xDC00 ≤ c.toNat ∧ c.toNat < 0xE000) := by omega
      rw [assemble?.eq_def]
      simp only [if_neg hhigh, if_neg hlow, ih, Char.ofNat_toNat, Option.map_some]
    · rw [assemble?, ih]
      rfl

/-- The form of a text reads back behind its opening quote. -/
lemma string?_quoted (s : String) (rest : List Char) :
    string? (s.toList.flatMap escapeChar ++ '"' :: rest) = some (some s, rest) := by
  rw [string?, pieces?_quoted]
  simp [assemble?_pieceOf]

/-! ### Values -/

mutual

/-- Whether a value keeps all of what is written of it: its numbers are natural, its strings are
texts. -/
def Value.isPlain : Value → Bool
  | .null | .bool _ => true
  | .number (.natural _) => true
  | .number (.other _) => false
  | .string s => s.isSome
  | .array items => arePlain items
  | .object members => membersArePlain members

/-- Whether all items keep what is written of them. -/
def arePlain : List Value → Bool
  | [] => true
  | v :: vs => v.isPlain && arePlain vs

/-- Whether all members keep what is written of them. -/
def membersArePlain : List (Option String × Value) → Bool
  | [] => true
  | (name, v) :: ms => name.isSome && v.isPlain && membersArePlain ms

end

/-- Neither blanks nor the end of an array stand at the start of a value. -/
lemma exists_head_render {v : Value} (hv : v.isPlain = true) :
    ∃ c cs, v.render = c :: cs ∧ isBlank c = false ∧ c ≠ ']' := by
  cases v with
  | null => exact ⟨'n', _, by rw [Value.render], rfl, by decide⟩
  | bool b =>
    cases b with
    | true => exact ⟨'t', _, by rw [Value.render], rfl, by decide⟩
    | false => exact ⟨'f', _, by rw [Value.render], rfl, by decide⟩
  | number n =>
    cases n with
    | other text => simp [Value.isPlain] at hv
    | natural n =>
      cases hds : Nat.toDigits 10 n with
      | nil => exact absurd hds Nat.toDigits_ne_nil
      | cons d ds =>
        have hdigit := isDigit_of_mem_toDigits (n := n) (c := d) (by simp [hds])
        refine ⟨d, ds, by rw [Value.render, Number.render, hds], ?_, ?_⟩
        · refine Bool.eq_false_iff.mpr fun hblank => ?_
          simp only [isBlank, Bool.or_eq_true, decide_eq_true_eq] at hblank
          rcases hblank with ((rfl | rfl) | rfl) | rfl <;> exact absurd hdigit (by decide)
        · rintro rfl
          exact absurd hdigit (by decide)
  | string s =>
    rw [Value.isPlain] at hv
    obtain ⟨s, rfl⟩ := Option.isSome_iff_exists.mp hv
    exact ⟨'"', _, by rw [Value.render, quoteText, quote]; rfl, rfl, by decide⟩
  | array items =>
    cases items with
    | nil => exact ⟨'[', _, by rw [Value.render], rfl, by decide⟩
    | cons v vs => exact ⟨'[', _, by rw [Value.render, List.cons_append], rfl, by decide⟩
  | object members =>
    rcases members with _ | ⟨⟨name, v⟩, ms⟩
    · exact ⟨'\x7b', _, by rw [Value.render], rfl, by decide⟩
    · exact ⟨'\x7b', _, by rw [Value.render, List.cons_append, List.cons_append], rfl, by decide⟩

/-- No blank is skipped in front of another character. -/
lemma skipBlanks_cons {c : Char} (hc : isBlank c = false) (cs : List Char) :
    skipBlanks (c :: cs) = c :: cs := by
  simp [skipBlanks, hc]

/-- What starts with a digit is read as a number. -/
lemma value?_of_digit {c : Char} (hc : isDigit c = true) (fuel : Nat) (cs : List Char) :
    value? (fuel + 1) (c :: cs) = (number? (c :: cs)).map fun (n, rest) => (.number n, rest) := by
  have hblank : isBlank c = false := by
    refine Bool.eq_false_iff.mpr fun hblank => ?_
    simp only [isBlank, Bool.or_eq_true, decide_eq_true_eq] at hblank
    rcases hblank with ((rfl | rfl) | rfl) | rfl <;> exact absurd hc (by decide)
  have hne : ∀ d, isDigit d = false → c ≠ d := by
    rintro d hd rfl
    exact Bool.false_ne_true (hd.symm.trans hc)
  rw [value?, skipBlanks_cons hblank]
  split
  · next heq => exact absurd (List.cons.inj heq).1 (hne 'n' rfl)
  · next heq => exact absurd (List.cons.inj heq).1 (hne 't' rfl)
  · next heq => exact absurd (List.cons.inj heq).1 (hne 'f' rfl)
  · next heq => exact absurd (List.cons.inj heq).1 (hne '"' rfl)
  · next heq => exact absurd (List.cons.inj heq).1 (hne '[' rfl)
  · next heq => exact absurd (List.cons.inj heq).1 (hne '\x7b' rfl)
  · rfl

/-- What follows an item is followed by the end of the array or by a further item. -/
lemma closes_renderItems (vs : List Value) (rest : List Char) :
    Closes (renderItems vs ++ rest) := by
  cases vs with
  | nil => exact .bracket rest
  | cons v vs =>
    rw [renderItems, List.cons_append, List.cons_append]
    exact .comma _

/-- What follows a member is followed by the end of the object or by a further member. -/
lemma closes_renderMembers (ms : List (Option String × Value)) (rest : List Char) :
    Closes (renderMembers ms ++ rest) := by
  rcases ms with _ | ⟨⟨name, v⟩, ms⟩
  · exact .brace rest
  · rw [renderMembers, List.cons_append, List.cons_append, List.cons_append]
    exact .comma _

/-- With some fuel, what is written of a value, of items or of members reads back. -/
structure ReadsBack (fuel : Nat) : Prop where
  value : ∀ v rest, v.isPlain = true → Closes rest → 2 * v.render.length ≤ fuel →
    value? fuel (v.render ++ rest) = some (v, rest)
  items : ∀ v vs rest, v.isPlain = true → arePlain vs = true →
    2 * (v.render.length + (renderItems vs).length) ≤ fuel + 1 →
    items? fuel (v.render ++ (renderItems vs ++ rest)) = some (v :: vs, rest)
  members : ∀ name v ms rest, v.isPlain = true → membersArePlain ms = true →
    2 * (v.render.length + (renderMembers ms).length) ≤ fuel + 1 →
    members? fuel (quote name.toList ++ (':' :: v.render ++ (renderMembers ms ++ rest))) =
      some ((some name, v) :: ms, rest)

namespace ReadsBack

variable {fuel : Nat}

/-- With a little more fuel a value reads back, by cases of its form. -/
lemma value_succ (h : ReadsBack fuel) (v : Value) (hv : v.isPlain = true) (hrest : Closes rest)
    (hfuel : 2 * v.render.length ≤ fuel + 1) :
    value? (fuel + 1) (v.render ++ rest) = some (v, rest) := by
  cases v with
  | null => simp [Value.render, value?, skipBlanks, isBlank]
  | bool b => cases b <;> simp [Value.render, value?, skipBlanks, isBlank]
  | number n =>
    cases n with
    | other text => simp [Value.isPlain] at hv
    | natural n =>
      have hnumber := number?_toDigits hrest n
      rw [Value.render, Number.render]
      cases hds : Nat.toDigits 10 n with
      | nil => exact absurd hds Nat.toDigits_ne_nil
      | cons d ds =>
        have hdigit := isDigit_of_mem_toDigits (n := n) (c := d) (by simp [hds])
        rw [hds, List.cons_append] at hnumber
        rw [List.cons_append, value?_of_digit hdigit, hnumber]
        rfl
  | string s =>
    rw [Value.isPlain] at hv
    obtain ⟨s, rfl⟩ := Option.isSome_iff_exists.mp hv
    have hstring := string?_quoted s rest
    simp [Value.render, quoteText, quote, value?, skipBlanks, isBlank, hstring]
  | array items =>
    cases items with
    | nil => simp [Value.render, value?, skipBlanks, isBlank]
    | cons v vs =>
      simp only [Value.isPlain, arePlain, Bool.and_eq_true] at hv
      simp only [Value.render, List.cons_append, List.length_cons, List.length_append] at hfuel
      obtain ⟨c, cs, hhead, hblank, hc⟩ := exists_head_render hv.1
      have hitems := h.items v vs rest hv.1 hv.2 (by omega)
      rw [hhead, List.cons_append] at hitems
      rw [Value.render, List.cons_append, List.cons_append, List.append_assoc, hhead,
        List.cons_append, value?, skipBlanks_cons rfl]
      simp only [skipBlanks_cons hblank]
      split
      · next heq => exact absurd (List.cons.inj heq).1 hc
      · rw [hitems]
        rfl
  | object members =>
    rcases members with _ | ⟨⟨name, v⟩, ms⟩
    · simp [Value.render, value?, skipBlanks, isBlank]
    · simp only [Value.isPlain, membersArePlain, Bool.and_eq_true] at hv
      obtain ⟨⟨hname, hv⟩, hms⟩ := hv
      obtain ⟨name, rfl⟩ := Option.isSome_iff_exists.mp hname
      simp only [Value.render, List.cons_append, List.length_cons, List.length_append] at hfuel
      have hmembers := h.members name v ms rest hv hms (by omega)
      simp only [Value.render, quoteText, quote, List.cons_append, List.append_assoc] at hmembers ⊢
      rw [value?, skipBlanks_cons rfl]
      simp only [skipBlanks_cons (show isBlank '"' = false from rfl)]
      exact congrArg (Option.map fun found => (Value.object found.1, found.2)) hmembers

/-- With a little more fuel items read back: the first one, then the others. -/
lemma items_succ (h : ReadsBack fuel) (v : Value) (vs : List Value) (hv : v.isPlain = true)
    (hvs : arePlain vs = true)
    (hfuel : 2 * (v.render.length + (renderItems vs).length) ≤ fuel + 1 + 1) :
    items? (fuel + 1) (v.render ++ (renderItems vs ++ rest)) = some (v :: vs, rest) := by
  have hlength : 1 ≤ (renderItems vs).length := by cases vs <;> simp [renderItems]
  have hvalue := h.value v _ hv (closes_renderItems vs rest) (by omega)
  have hcomma : ∀ cs, skipBlanks (',' :: cs) = ',' :: cs := skipBlanks_cons rfl
  rw [items?, hvalue]
  cases vs with
  | nil => rfl
  | cons w ws =>
    simp only [arePlain, Bool.and_eq_true] at hvs
    simp only [renderItems, List.cons_append, List.length_cons, List.length_append] at hfuel
    have hitems := h.items w ws rest hvs.1 hvs.2 (by omega)
    simp only [renderItems, List.cons_append, List.append_assoc, hcomma, hitems, Option.map_some]

/-- With a little more fuel members read back: a name, a value, then the others. -/
lemma members_succ (h : ReadsBack fuel) (name : String) (v : Value)
    (ms : List (Option String × Value)) (hv : v.isPlain = true) (hms : membersArePlain ms = true)
    (hfuel : 2 * (v.render.length + (renderMembers ms).length) ≤ fuel + 1 + 1) :
    members? (fuel + 1) (quote name.toList ++ (':' :: v.render ++ (renderMembers ms ++ rest))) =
      some ((some name, v) :: ms, rest) := by
  have hlength : 1 ≤ (renderMembers ms).length := by
    rcases ms with _ | ⟨⟨name, v⟩, ms⟩ <;> simp [renderMembers]
  have hvalue := h.value v _ hv (closes_renderMembers ms rest) (by omega)
  have hcomma : ∀ cs, skipBlanks (',' :: cs) = ',' :: cs := skipBlanks_cons rfl
  have hstring := string?_quoted name
  simp only [quote, List.cons_append, List.append_assoc, List.nil_append]
  rw [members?, skipBlanks_cons rfl]
  simp only [hstring, skipBlanks_cons (show isBlank ':' = false from rfl), hvalue]
  rcases ms with _ | ⟨⟨name', w⟩, ms⟩
  · rfl
  · simp only [membersArePlain, Bool.and_eq_true] at hms
    obtain ⟨⟨hname, hw⟩, hms⟩ := hms
    obtain ⟨name', rfl⟩ := Option.isSome_iff_exists.mp hname
    simp only [renderMembers, List.cons_append, List.length_cons, List.length_append] at hfuel
    have hmembers := h.members name' w ms rest hw hms (by omega)
    simp only [List.cons_append] at hmembers
    simp only [renderMembers, quoteText, List.cons_append, List.append_assoc, hcomma, hmembers,
      Option.map_some]

/-- What is written reads back, if there is enough fuel. -/
theorem of_fuel : ∀ fuel, ReadsBack fuel
  | 0 =>
    { value := fun v rest hv _ hfuel => by
        obtain ⟨c, cs, hhead, -⟩ := exists_head_render hv
        simp [hhead] at hfuel
      items := fun v vs rest hv _ hfuel => by
        obtain ⟨c, cs, hhead, -⟩ := exists_head_render hv
        simp [hhead] at hfuel
        omega
      members := fun name v ms rest hv _ hfuel => by
        obtain ⟨c, cs, hhead, -⟩ := exists_head_render hv
        simp [hhead] at hfuel
        omega }
  | fuel + 1 =>
    have h := of_fuel fuel
    { value := fun v _ hv hrest hfuel => h.value_succ v hv hrest hfuel
      items := fun v vs _ hv hvs hfuel => h.items_succ v vs hv hvs hfuel
      members := fun name v ms _ hv hms hfuel => h.members_succ name v ms hv hms hfuel }

end ReadsBack

/-- The text of a value reads back. -/
theorem Value.parse?_compact {v : Value} (hv : v.isPlain = true) :
    Value.parse? v.compact = some v := by
  have hvalue := (ReadsBack.of_fuel (2 * v.render.length + 1)).value v [] hv .nil (by omega)
  rw [List.append_nil] at hvalue
  simp [Value.parse?, Value.compact, hvalue, skipBlanks]

end RoundScheduler.Json
