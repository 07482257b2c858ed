import Mathlib.Algebra.Group.Nat.Defs
import RoundScheduler.Identifier

/-!
# The grammar of numerals

A numeral is read digit by digit, and the value read so far is compared with the largest word at
each of them. `Scan` says what this comes to without an accumulator: a row of characters is split
at the first position that stops the reading, if there is one. From this the texts that write a
thread are described for good: which ones do, what thread each of them writes, and what is wrong
with every other one.
-/

namespace RoundScheduler

/-- A number is a word exactly if it is below the 64th power of two. -/
lemma Word.fits_iff {n : Nat} : Fits n ↔ n < 2 ^ 64 := by
  have hmax : Word.max + 1 = 2 ^ 64 := by decide
  rw [Fits, ← hmax, Nat.lt_succ_iff]

namespace Numeral

/-! ### Digits -/

/-- The value of a row of digits, the most significant one first. -/
def valueOf (ds : List Char) : Nat := Nat.ofDigitChars 10 ds 0

/-- Another digit is worth its value, and the others ten times as much as before. -/
lemma valueOf_concat (ds : List Char) (c : Char) :
    valueOf (ds ++ [c]) = valueOf ds * 10 + (c.toNat - '0'.toNat) := by
  rw [valueOf, Nat.ofDigitChars_append, Nat.ofDigitChars_cons, Nat.ofDigitChars_nil, Nat.mul_comm,
    valueOf]

/-- What digits add to a number does not make it smaller. -/
lemma le_ofDigitChars (ds : List Char) (n : Nat) : n ≤ Nat.ofDigitChars 10 ds n := by
  induction ds generalizing n with
  | nil => exact Nat.le_refl n
  | cons d ds ih =>
    rw [Nat.ofDigitChars_cons]
    exact Nat.le_trans (by omega) (ih _)

/-- More digits are not worth less. -/
lemma valueOf_le_append (ds es : List Char) : valueOf ds ≤ valueOf (ds ++ es) := by
  rw [valueOf, valueOf, Nat.ofDigitChars_append]
  exact le_ofDigitChars es _

/-- The digits of a number have its value. -/
lemma valueOf_toDigits (n : Nat) : valueOf (Nat.toDigits 10 n) = n :=
  Nat.ofDigitChars_toDigits (by decide) (by decide)

/-- A digit is read with its value. -/
lemma digit?_of_isDigit {c : Char} (hc : c.isDigit = true) :
    digit? c = some (c.toNat - '0'.toNat) := by
  refine if_pos ?_
  simpa [Char.isDigit, Char.le_def] using hc

/-- Other characters are not read as digits. -/
lemma digit?_of_not_isDigit {c : Char} (hc : ¬ c.isDigit = true) : digit? c = none := by
  refine if_neg fun hrange => hc ?_
  simpa [Char.isDigit, Char.le_def] using hrange

/-! ### Where the reading stops -/

/-- What reading a row of characters from left to right comes to. -/
inductive Scan (cs : List Char) : Except NumeralError Nat → Prop
  /-- All of them are digits of a word. -/
  | whole (hdigits : ∀ c ∈ cs, c.isDigit = true) (hfits : valueOf cs < 2 ^ 64) :
    Scan cs (.ok (valueOf cs))
  /-- Behind the digits of a word stands something else. -/
  | stray (ds : List Char) (c : Char) (rest : List Char) (hcs : cs = ds ++ c :: rest)
    (hdigits : ∀ d ∈ ds, d.isDigit = true) (hfits : valueOf ds < 2 ^ 64)
    (hc : ¬ c.isDigit = true) : Scan cs (.error .invalidDigit)
  /-- Behind the digits of a word stands one that makes it too large. -/
  | excess (ds : List Char) (c : Char) (rest : List Char) (hcs : cs = ds ++ c :: rest)
    (hdigits : ∀ d ∈ ds ++ [c], d.isDigit = true) (hfits : valueOf ds < 2 ^ 64)
    (hover : 2 ^ 64 ≤ valueOf (ds ++ [c])) : Scan cs (.error .tooLarge)

/-- One more character is read. -/
lemma readFrom_cons (ds : List Char) {c : Char} (hc : c.isDigit = true) (cs : List Char) :
    readFrom (valueOf ds) (c :: cs) =
      if valueOf (ds ++ [c]) < 2 ^ 64 then readFrom (valueOf (ds ++ [c])) cs
      else .error .tooLarge := by
  have hfits : valueOf ds * 10 + (c.toNat - '0'.toNat) ≤ Word.max ↔
      valueOf (ds ++ [c]) < 2 ^ 64 := by
    rw [valueOf_concat]
    exact Word.fits_iff
  rw [readFrom, digit?_of_isDigit hc]
  simp only [hfits, valueOf_concat]

/-- Reading goes on behind the digits of a word. -/
lemma readFrom_append {ds es : List Char} (hdigits : ∀ d ∈ es, d.isDigit = true)
    (hfits : valueOf (ds ++ es) < 2 ^ 64) (cs : List Char) :
    readFrom (valueOf ds) (es ++ cs) = readFrom (valueOf (ds ++ es)) cs := by
  induction es generalizing ds with
  | nil => rw [List.append_nil, List.nil_append]
  | cons e es ih =>
    have hsplit : ds ++ e :: es = (ds ++ [e]) ++ es := by simp
    rw [hsplit] at hfits ⊢
    have hsmall : valueOf (ds ++ [e]) < 2 ^ 64 := Nat.lt_of_le_of_lt (valueOf_le_append _ es) hfits
    rw [List.cons_append, readFrom_cons ds (hdigits e (by simp)), if_pos hsmall]
    exact ih (fun d hd => hdigits d (List.mem_cons_of_mem e hd)) hfits

/-- What is read behind the digits of a word is described by `Scan`. -/
lemma scan_append_readFrom {ds : List Char} (hdigits : ∀ d ∈ ds, d.isDigit = true)
    (hfits : valueOf ds < 2 ^ 64) (cs : List Char) :
    Scan (ds ++ cs) (readFrom (valueOf ds) cs) := by
  induction cs generalizing ds with
  | nil =>
    rw [List.append_nil]
    exact .whole hdigits hfits
  | cons c cs ih =>
    by_cases hc : c.isDigit = true
    · have hmore : ∀ d ∈ ds ++ [c], d.isDigit = true := by
        intro d hd
        rcases List.mem_append.mp hd with hd | hd
        · exact hdigits d hd
        · exact List.mem_singleton.mp hd ▸ hc
      rw [readFrom_cons ds hc]
      split
      · next hsmall => simpa using ih hmore hsmall
      · next hlarge => exact .excess ds c cs rfl hmore hfits (Nat.le_of_not_lt hlarge)
    · rw [readFrom, digit?_of_not_isDigit hc]
      exact .stray ds c cs rfl hdigits hfits hc

/-- Reading a row of characters comes to what `Scan` says, and to nothing else. -/
theorem readFrom_zero_eq_iff {cs : List Char} {r : Except NumeralError Nat} :
    readFrom 0 cs = r ↔ Scan cs r := by
  have hskip : ∀ {ds : List Char}, (∀ d ∈ ds, d.isDigit = true) → valueOf ds < 2 ^ 64 →
      ∀ rest, readFrom 0 (ds ++ rest) = readFrom (valueOf ds) rest := by
    intro ds hdigits hfits
    exact @readFrom_append [] _ hdigits hfits
  constructor
  · rintro rfl
    exact @scan_append_readFrom [] nofun (by decide) cs
  · intro h
    cases h with
    | whole hdigits hfits =>
      have hread := hskip hdigits hfits []
      rwa [List.append_nil] at hread
    | stray ds c rest hcs hdigits hfits hc =>
      rw [hcs, hskip hdigits hfits, readFrom, digit?_of_not_isDigit hc]
    | excess ds c rest hcs hdigits hfits hover =>
      have hbefore : ∀ d ∈ ds, d.isDigit = true := fun d hd =>
        hdigits d (List.mem_append_left [c] hd)
      have hc : c.isDigit = true := hdigits c (by simp)
      rw [hcs, hskip hbefore hfits, readFrom_cons ds hc, if_neg (Nat.not_lt.mpr hover)]

/-- A text scans in one way only. -/
lemma Scan.unique {cs : List Char} {r r' : Except NumeralError Nat} (h : Scan cs r)
    (h' : Scan cs r') : r = r' :=
  (readFrom_zero_eq_iff.mpr h).symm.trans (readFrom_zero_eq_iff.mpr h')

/-! ### Marks in front -/

/-- A text without a mark in front, if it stands there. -/
def without (mark : Char) : List Char → List Char
  | [] => []
  | c :: cs => if c = mark then cs else c :: cs

/-- A mark in front is left out. -/
@[simp] lemma without_cons_self (mark : Char) (cs : List Char) : without mark (mark :: cs) = cs :=
  if_pos rfl

/-- Another character in front is kept. -/
lemma without_cons_of_ne {mark c : Char} (hc : c ≠ mark) (cs : List Char) :
    without mark (c :: cs) = c :: cs :=
  if_neg hc

/-- A text is what is left of it without the mark, with or without the mark in front. -/
lemma exists_mark (mark : Char) (cs : List Char) :
    ∃ front, (front = [] ∨ front = [mark]) ∧ cs = front ++ without mark cs := by
  cases cs with
  | nil => exact ⟨[], .inl rfl, rfl⟩
  | cons c cs =>
    by_cases hc : c = mark
    · subst hc
      exact ⟨[c], .inr rfl, by simp⟩
    · exact ⟨[], .inl rfl, by rw [without_cons_of_ne hc, List.nil_append]⟩

/-- A mark can be told from what stands behind it if that begins otherwise. -/
lemma without_append {mark : Char} {front cs : List Char} (hfront : front = [] ∨ front = [mark])
    (hcs : cs.head? ≠ some mark) : without mark (front ++ cs) = cs := by
  rcases hfront with rfl | rfl
  · cases cs with
    | nil => rfl
    | cons c cs => exact without_cons_of_ne (by simpa using hcs) cs
  · exact without_cons_self mark cs

/-! ### Signs -/

/-- Without a sign in front every character counts. -/
lemma read_of_ne {c : Char} (hc : c ≠ '+') (cs : List Char) :
    read (c :: cs) = readFrom 0 (c :: cs) := by
  rw [read] <;> simp [hc]

/-- A text that has something behind its sign is read as a row of characters. -/
lemma read_cases (cs : List Char) :
    (cs = [] ∧ read cs = .error .empty) ∨ (cs = ['+'] ∧ read cs = .error .invalidDigit) ∨
      (without '+' cs ≠ [] ∧ Scan (without '+' cs) (read cs)) := by
  cases cs with
  | nil => exact .inl ⟨rfl, rfl⟩
  | cons c cs =>
    by_cases hc : c = '+'
    · subst hc
      cases cs with
      | nil => exact .inr (.inl ⟨rfl, rfl⟩)
      | cons c cs => exact .inr (.inr ⟨List.cons_ne_nil c cs, readFrom_zero_eq_iff.mp rfl⟩)
    · rw [without_cons_of_ne hc, read_of_ne hc]
      exact .inr (.inr ⟨List.cons_ne_nil c cs, readFrom_zero_eq_iff.mp rfl⟩)

/-- A row of digits begins with no mark. -/
lemma head?_of_digits {ds : List Char} (hdigits : ∀ d ∈ ds, d.isDigit = true) {mark : Char}
    (hmark : mark.isDigit = false) : ds.head? ≠ some mark := by
  intro hhead
  have hdigit := hdigits mark (List.mem_of_head? hhead)
  exact Bool.false_ne_true (hmark.symm.trans hdigit)

/-! ### Which texts are numerals, and what is wrong with the others -/

variable {cs : List Char}

/-- A scan of what stands behind the sign says what is read. -/
lemma read_eq_of_scan {r : Except NumeralError Nat} (hne : without '+' cs ≠ [])
    (h : Scan (without '+' cs) r) : read cs = r := by
  rcases read_cases cs with ⟨rfl, -⟩ | ⟨rfl, -⟩ | ⟨-, hscan⟩
  · exact absurd rfl hne
  · exact absurd rfl hne
  · exact hscan.unique h

/-- A number is read from an optional sign and digits that are worth a word. -/
lemma read_eq_ok_iff {n : Nat} : read cs = .ok n ↔ ∃ sign ds, (sign = [] ∨ sign = ['+']) ∧
    cs = sign ++ ds ∧ ds ≠ [] ∧ (∀ d ∈ ds, d.isDigit = true) ∧ valueOf ds < 2 ^ 64 ∧
    n = valueOf ds := by
  constructor
  · intro hread
    rcases read_cases cs with ⟨-, herror⟩ | ⟨-, herror⟩ | ⟨hne, hscan⟩
    · cases hread.symm.trans herror
    · cases hread.symm.trans herror
    · obtain ⟨sign, hsign, hcs⟩ := exists_mark '+' cs
      rw [hread] at hscan
      cases hscan with
      | whole hdigits hfits => exact ⟨sign, without '+' cs, hsign, hcs, hne, hdigits, hfits, rfl⟩
  · rintro ⟨sign, ds, hsign, rfl, hne, hdigits, hfits, rfl⟩
    have hunsigned : without '+' (sign ++ ds) = ds :=
      without_append hsign (head?_of_digits hdigits rfl)
    refine read_eq_of_scan (hunsigned.symm ▸ hne) ?_
    rw [hunsigned]
    exact .whole hdigits hfits

/-- Only the empty text is called empty. -/
lemma read_eq_empty_iff : read cs = .error .empty ↔ cs = [] := by
  constructor
  · intro hread
    rcases read_cases cs with ⟨hnil, -⟩ | ⟨-, herror⟩ | ⟨-, hscan⟩
    · exact hnil
    · cases hread.symm.trans herror
    · rw [hread] at hscan
      cases hscan
  · rintro rfl
    rfl

/-- A bad character is reported for a sign alone, or if what stands before it is worth a word. -/
lemma read_eq_invalidDigit_iff : read cs = .error .invalidDigit ↔ cs = ['+'] ∨
    ∃ ds c rest, without '+' cs = ds ++ c :: rest ∧ (∀ d ∈ ds, d.isDigit = true) ∧
      valueOf ds < 2 ^ 64 ∧ ¬ c.isDigit = true := by
  constructor
  · intro hread
    rcases read_cases cs with ⟨-, herror⟩ | ⟨hplus, -⟩ | ⟨-, hscan⟩
    · cases hread.symm.trans herror
    · exact .inl hplus
    · rw [hread] at hscan
      cases hscan with
      | stray ds c rest hcs hdigits hfits hc => exact .inr ⟨ds, c, rest, hcs, hdigits, hfits, hc⟩
  · rintro (rfl | ⟨ds, c, rest, hcs, hdigits, hfits, hc⟩)
    · rfl
    · exact read_eq_of_scan (by simp [hcs]) (.stray ds c rest hcs hdigits hfits hc)

/-- A large number is reported at the first digit with which it is worth more than a word. -/
lemma read_eq_tooLarge_iff : read cs = .error .tooLarge ↔
    ∃ ds c rest, without '+' cs = ds ++ c :: rest ∧ (∀ d ∈ ds ++ [c], d.isDigit = true) ∧
      valueOf ds < 2 ^ 64 ∧ 2 ^ 64 ≤ valueOf (ds ++ [c]) := by
  constructor
  · intro hread
    rcases read_cases cs with ⟨-, herror⟩ | ⟨-, herror⟩ | ⟨-, hscan⟩
    · cases hread.symm.trans herror
    · cases hread.symm.trans herror
    · rw [hread] at hscan
      cases hscan with
      | excess ds c rest hcs hdigits hfits hover => exact ⟨ds, c, rest, hcs, hdigits, hfits, hover⟩
  · rintro ⟨ds, c, rest, hcs, hdigits, hfits, hover⟩
    exact read_eq_of_scan (by simp [hcs]) (.excess ds c rest hcs hdigits hfits hover)

/-- A number is written in digits. -/
lemma isDigit_toDigits (n : Nat) : ∀ d ∈ Nat.toDigits 10 n, d.isDigit = true := by
  intro d hd
  exact Nat.isDigit_of_mem_toDigits (by decide) (by decide) hd

/-- The digits of a word read back. -/
lemma read_toDigits {n : Nat} (hn : n < 2 ^ 64) : read (Nat.toDigits 10 n) = .ok n := by
  have hvalue := valueOf_toDigits n
  refine read_eq_ok_iff.mpr ⟨[], Nat.toDigits 10 n, .inl rfl, rfl, Nat.toDigits_ne_nil,
    isDigit_toDigits n, ?_, hvalue.symm⟩
  rwa [hvalue]

end Numeral

/-! ### Texts of threads -/

namespace ThreadId

open Numeral

/-- The text of a thread is a number behind an optional mark. -/
lemma ofChars?_eq (cs : List Char) : ofChars? cs = (read (without 'T' cs)).map ThreadId.mk := by
  cases cs with
  | nil => rfl
  | cons c cs =>
    by_cases hc : c = 'T'
    · subst hc
      rfl
    · rw [without_cons_of_ne hc, ofChars?]
      simp [hc]

/-- A thread is refused for the reason for which its number is. -/
lemma ofText?_eq_error_iff {s : String} {e : NumeralError} :
    ofText? s = .error e ↔ read (without 'T' s.toList) = .error e := by
  rw [ofText?, ofChars?_eq]
  cases read (without 'T' s.toList) <;> simp [Except.map]

/-- A thread is read if its number is. -/
lemma ofText?_eq_ok_iff {s : String} {n : Nat} :
    ofText? s = .ok ⟨n⟩ ↔ read (without 'T' s.toList) = .ok n := by
  rw [ofText?, ofChars?_eq]
  cases read (without 'T' s.toList) <;> simp [Except.map]

/-- A numeral does not begin with a `T`. -/
lemma head?_of_numeral {sign ds : List Char} (hsign : sign = [] ∨ sign = ['+'])
    (hdigits : ∀ d ∈ ds, d.isDigit = true) : (sign ++ ds).head? ≠ some 'T' := by
  rcases hsign with rfl | rfl
  · exact head?_of_digits hdigits rfl
  · simp

/-- The texts that are read as the thread `t`. -/
lemma ofText?_eq_ok_iff_written {s : String} {t : ThreadId} :
    ofText? s = .ok t ↔ ∃ tag sign ds, (tag = [] ∨ tag = ['T']) ∧ (sign = [] ∨ sign = ['+']) ∧
      s.toList = tag ++ sign ++ ds ∧ ds ≠ [] ∧ (∀ d ∈ ds, d.isDigit = true) ∧
      valueOf ds < 2 ^ 64 ∧ t = ⟨valueOf ds⟩ := by
  refine ofText?_eq_ok_iff.trans (read_eq_ok_iff.trans ⟨?_, ?_⟩)
  · rintro ⟨sign, ds, hsign, hs, hne, hdigits, hfits, ht⟩
    obtain ⟨tag, htag, htext⟩ := exists_mark 'T' s.toList
    rw [hs, ← List.append_assoc] at htext
    exact ⟨tag, sign, ds, htag, hsign, htext, hne, hdigits, hfits, congrArg ThreadId.mk ht⟩
  · rintro ⟨tag, sign, ds, htag, hsign, htext, hne, hdigits, hfits, rfl⟩
    refine ⟨sign, ds, hsign, ?_, hne, hdigits, hfits, rfl⟩
    rw [htext, List.append_assoc]
    exact without_append htag (head?_of_numeral hsign hdigits)

/-- The digits of a number are read as its thread, with a `T` in front and without. -/
lemma ofText?_of_toDigits {s : String} {tag : List Char} {n : Nat} (hn : n < 2 ^ 64)
    (htag : tag = [] ∨ tag = ['T']) (hs : s.toList = tag ++ Nat.toDigits 10 n) :
    ofText? s = .ok ⟨n⟩ := by
  rw [ofText?_eq_ok_iff, hs, without_append htag (head?_of_digits (isDigit_toDigits n) rfl)]
  exact read_toDigits hn

/-- A text is read as a thread exactly if it is one `T` at most, one plus sign at most, and digits
whose value is a word; the value is the number of the thread. Of any other text, what stands behind
the `T` is empty, or it is a sign alone or has something that is no digit before its value exceeds
the words, or its value exceeds them first. Every thread reads back from its text and from its
bare number. -/
theorem thread_text_grammar (s : String) :
    (∀ t, ofText? s = .ok t ↔ ∃ tag sign ds, (tag = [] ∨ tag = ['T']) ∧
      (sign = [] ∨ sign = ['+']) ∧ s.toList = tag ++ sign ++ ds ∧ ds ≠ [] ∧
      (∀ d ∈ ds, d.isDigit = true) ∧ valueOf ds < 2 ^ 64 ∧ t = ⟨valueOf ds⟩) ∧
    (ofText? s = .error .empty ↔ without 'T' s.toList = []) ∧
    (ofText? s = .error .invalidDigit ↔ without 'T' s.toList = ['+'] ∨
      ∃ ds c rest, without '+' (without 'T' s.toList) = ds ++ c :: rest ∧
        (∀ d ∈ ds, d.isDigit = true) ∧ valueOf ds < 2 ^ 64 ∧ ¬ c.isDigit = true) ∧
    (ofText? s = .error .tooLarge ↔
      ∃ ds c rest, without '+' (without 'T' s.toList) = ds ++ c :: rest ∧
        (∀ d ∈ ds ++ [c], d.isDigit = true) ∧ valueOf ds < 2 ^ 64 ∧
        2 ^ 64 ≤ valueOf (ds ++ [c])) ∧
    ∀ t : ThreadId, t.raw < 2 ^ 64 →
      ofText? t.text = .ok t ∧ ofText? (toString t.raw) = .ok t := by
  refine ⟨fun t => ofText?_eq_ok_iff_written, ofText?_eq_error_iff.trans read_eq_empty_iff,
    ofText?_eq_error_iff.trans read_eq_invalidDigit_iff,
    ofText?_eq_error_iff.trans read_eq_tooLarge_iff, fun t ht => ?_⟩
  have hbare : (toString t.raw).toList = [] ++ Nat.toDigits 10 t.raw := Nat.toList_repr
  have htagged : t.text.toList = ['T'] ++ Nat.toDigits 10 t.raw := by
    simp only [text, String.toList_append, Nat.toString_eq_repr, Nat.toList_repr]
    rfl
  exact ⟨ofText?_of_toDigits ht (.inr rfl) htagged, ofText?_of_toDigits ht (.inl rfl) hbare⟩

/-- The largest thread reads back in both forms. Where a text goes wrong twice, the first position
decides: a digit too large before a letter, or a letter before that digit. -/
theorem thread_text_grammar_largest :
    (18446744073709551615 : Nat) < 2 ^ 64 ∧
    ofText? "T18446744073709551615" = .ok ⟨18446744073709551615⟩ ∧
    ofText? "18446744073709551615" = .ok ⟨18446744073709551615⟩ ∧
    ofText? "T+18446744073709551616x" = .error .tooLarge ∧
    ofText? "T+1844674407370955161x6" = .error .invalidDigit := by
  have hlargest : (18446744073709551615 : Nat) < 2 ^ 64 := by decide
  obtain ⟨htagged, hbare⟩ :=
    (thread_text_grammar "").2.2.2.2 ⟨18446744073709551615⟩ hlargest
  refine ⟨hlargest, htagged, hbare, ?_, ?_⟩
  · exact (thread_text_grammar _).2.2.2.1.mpr
      ⟨"1844674407370955161".toList, '6', ['x'], by decide, by simp, by decide, by decide⟩
  · exact (thread_text_grammar _).2.2.1.mpr
      (.inr ⟨"1844674407370955161".toList, 'x', ['6'], by decide, by simp, by decide, by decide⟩)

end ThreadId

end RoundScheduler
