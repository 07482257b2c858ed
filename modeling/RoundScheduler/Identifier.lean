import RoundScheduler.Numeral

/-!
# Identifiers

Logical threads and locks are numbered from zero in the order in which one scheduler creates them.
A thread is written `T3` and a lock `L3`; the text of a thread reads back, with or without its `T`.
-/

namespace RoundScheduler

/-- The number of a logical thread. -/
structure ThreadId where
  /-- The position in the order of submission. -/
  raw : Nat
  deriving DecidableEq, Inhabited

/-- The number of a lock. -/
structure LockId where
  /-- The position in the order of creation. -/
  raw : Nat
  deriving DecidableEq, Inhabited

/-- The index of a primary within the primaries of a round. -/
abbrev Slot := Nat

/-! ### Threads -/

namespace ThreadId

/-- The written form of a thread, `T3`. -/
def text (t : ThreadId) : String := s!"T{t.raw}"

/-- The form of a thread in lists and dumps, `ThreadId(3)`. -/
def debug (t : ThreadId) : String := s!"ThreadId({t.raw})"

/-- The thread numbered after `t`. -/
def next (t : ThreadId) : ThreadId := ⟨t.raw + 1⟩

/-- The thread numbered after `t`, if its number is a word. -/
def next? (t : ThreadId) : Except Word.Overflow ThreadId := (Word.succ? t.raw).map ThreadId.mk

/-- Reads a thread from its characters: one leading `T` may stand before the numeral. -/
def ofChars? : List Char → Except NumeralError ThreadId
  | 'T' :: cs => (Numeral.read cs).map ThreadId.mk
  | cs => (Numeral.read cs).map ThreadId.mk

/-- Reads a thread from its text. -/
def ofText? (s : String) : Except NumeralError ThreadId := ofChars? s.toList

end ThreadId

/-! ### Locks -/

namespace LockId

/-- The written form of a lock, `L3`. -/
def text (l : LockId) : String := s!"L{l.raw}"

/-- The form of a lock in lists and dumps, `LockId(3)`. -/
def debug (l : LockId) : String := s!"LockId({l.raw})"

/-- The lock numbered after `l`. -/
def next (l : LockId) : LockId := ⟨l.raw + 1⟩

/-- The lock numbered after `l`, if its number is a word. -/
def next? (l : LockId) : Except Word.Overflow LockId := (Word.succ? l.raw).map LockId.mk

end LockId

end RoundScheduler
