/-!
# Tables

A finite map as a list of pairs. Entries stay in the order in which their keys were first set, so
tables whose keys are handed out in increasing order list them in that order.
-/

namespace RoundScheduler

/-- A finite map from keys to values. -/
structure Table (κ ν : Type) where
  /-- The pairs, in the order in which their keys were first set. -/
  entries : List (κ × ν) := []
  deriving DecidableEq

namespace Table

variable {κ ν : Type}

/-- The table without entries. -/
def empty : Table κ ν := ⟨[]⟩

instance : EmptyCollection (Table κ ν) := ⟨empty⟩
instance : Inhabited (Table κ ν) := ⟨empty⟩

/-- The keys, in order. -/
def keys (t : Table κ ν) : List κ := t.entries.map (·.1)

/-- The number of entries. -/
def size (t : Table κ ν) : Nat := t.entries.length

/-- The table with every value replaced, the key being known. -/
def map (f : κ → ν → ν) (t : Table κ ν) : Table κ ν :=
  ⟨t.entries.map fun (k, v) => (k, f k v)⟩

/-- The entries that satisfy a condition. -/
def filter (p : κ → ν → Bool) (t : Table κ ν) : Table κ ν :=
  ⟨t.entries.filter fun (k, v) => p k v⟩

variable [DecidableEq κ]

/-- The first value of a key in a list of pairs. -/
def lookup (k : κ) : List (κ × ν) → Option ν
  | [] => none
  | (k', v) :: es => if k' = k then some v else lookup k es

/-- The pairs with the value of a key replaced, or added at the end. -/
def assign (k : κ) (v : ν) : List (κ × ν) → List (κ × ν)
  | [] => [(k, v)]
  | (k', v') :: es => if k' = k then (k, v) :: es else (k', v') :: assign k v es

/-- The value of a key. -/
def get? (t : Table κ ν) (k : κ) : Option ν := lookup k t.entries

/-- Whether a key has a value. -/
def contains (t : Table κ ν) (k : κ) : Bool := (t.get? k).isSome

/-- The table with the value of a key set. -/
def set (t : Table κ ν) (k : κ) (v : ν) : Table κ ν := ⟨assign k v t.entries⟩

/-- The table with the value of a key changed, if it has one. -/
def modify (t : Table κ ν) (k : κ) (f : ν → ν) : Table κ ν :=
  t.map fun k' v => if k' = k then f v else v

/-- The table without a key. -/
def erase (t : Table κ ν) (k : κ) : Table κ ν := t.filter fun k' _ => k' ≠ k

/-! ### Look-up after each operation -/

/-- Nothing is found in the empty table. -/
@[simp] theorem get?_empty (k : κ) : (∅ : Table κ ν).get? k = none := rfl

/-- An assignment is found at its key and changes no other key. -/
theorem lookup_assign (k k' : κ) (v : ν) (es : List (κ × ν)) :
    lookup k' (assign k v es) = if k' = k then some v else lookup k' es := by
  induction es with
  | nil => grind [lookup, assign]
  | cons e es ih => grind [lookup, assign]

/-- A change to every value changes what is found, and finds nothing new. -/
theorem lookup_map (f : κ → ν → ν) (k : κ) (es : List (κ × ν)) :
    lookup k (es.map fun (k, v) => (k, f k v)) = (lookup k es).map (f k) := by
  induction es with
  | nil => rfl
  | cons e es ih => grind [lookup]

/-- A value that was set is found at its key, and the other keys keep theirs. -/
@[simp] theorem get?_set (t : Table κ ν) (k k' : κ) (v : ν) :
    (t.set k v).get? k' = if k' = k then some v else t.get? k' :=
  lookup_assign k k' v t.entries

/-- A change to every value of a table changes the value that is found. -/
@[simp] theorem get?_map (t : Table κ ν) (f : κ → ν → ν) (k : κ) :
    (t.map f).get? k = (t.get? k).map (f k) :=
  lookup_map f k t.entries

/-- A change to one value is seen at its key only, and only if there was a value. -/
@[simp] theorem get?_modify (t : Table κ ν) (k k' : κ) (f : ν → ν) :
    (t.modify k f).get? k' = if k' = k then (t.get? k').map f else t.get? k' := by
  rw [modify, get?_map]
  split <;> simp_all

/-- Without the entries of a key, the key is not found and the others are found as before. -/
theorem lookup_erase (k k' : κ) (es : List (κ × ν)) :
    lookup k' (es.filter fun e => e.1 ≠ k) = if k' = k then none else lookup k' es := by
  induction es with
  | nil => simp [lookup]
  | cons e es ih => grind [lookup]

/-- An erased key has no value, and the other keys keep theirs. -/
@[simp] theorem get?_erase (t : Table κ ν) (k k' : κ) :
    (t.erase k).get? k' = if k' = k then none else t.get? k' :=
  lookup_erase k k' t.entries

/-! ### Keys -/

omit [DecidableEq κ] in
/-- A change to every value leaves the keys in their order. -/
@[simp] theorem keys_map (t : Table κ ν) (f : κ → ν → ν) : (t.map f).keys = t.keys := by
  simp [keys, map, Function.comp_def]

/-- A change to one value leaves the keys in their order. -/
@[simp] theorem keys_modify (t : Table κ ν) (k : κ) (f : ν → ν) : (t.modify k f).keys = t.keys :=
  keys_map t _

/-- A new key comes last, and a known one stays where it is. -/
theorem keys_assign (k : κ) (v : ν) (es : List (κ × ν)) :
    (assign k v es).map (·.1) =
      if k ∈ es.map (·.1) then es.map (·.1) else es.map (·.1) ++ [k] := by
  induction es with
  | nil => rfl
  | cons e es ih => grind [assign]

/-- No key is twice in a table after a value was set. -/
theorem nodup_keys_set {t : Table κ ν} (h : t.keys.Nodup) (k : κ) (v : ν) :
    (t.set k v).keys.Nodup := by
  have hk : (t.set k v).keys = if k ∈ t.keys then t.keys else t.keys ++ [k] :=
    keys_assign k v t.entries
  rw [hk]
  split
  · exact h
  · rw [List.nodup_append]
    grind

omit [DecidableEq κ] in
/-- No key is twice in what is left of a table. -/
theorem nodup_keys_filter {t : Table κ ν} (h : t.keys.Nodup) (p : κ → ν → Bool) :
    (t.filter p).keys.Nodup :=
  List.Pairwise.sublist (List.filter_sublist.map _) h

/-- What is found for a key is an entry. -/
theorem mem_of_lookup_eq_some {k : κ} {v : ν} {es : List (κ × ν)} (h : lookup k es = some v) :
    (k, v) ∈ es := by
  induction es with
  | nil => simp [lookup] at h
  | cons e es ih => grind [lookup]

/-- What is found in a table is one of its entries. -/
theorem mem_entries_of_get?_eq_some {t : Table κ ν} {k : κ} {v : ν} (h : t.get? k = some v) :
    (k, v) ∈ t.entries :=
  mem_of_lookup_eq_some h

/-- A pair of a list is found by its key, if keys are distinct. -/
theorem lookup_eq_some_of_mem {k : κ} {v : ν} {es : List (κ × ν)} (hkeys : (es.map (·.1)).Nodup)
    (h : (k, v) ∈ es) : lookup k es = some v := by
  induction es with
  | nil => cases h
  | cons e es ih =>
    have hkey : k ∈ (e :: es).map (·.1) := List.mem_map_of_mem h
    grind [lookup]

/-- An entry of a table is found by its key, if keys are distinct. -/
theorem get?_eq_some_of_mem {t : Table κ ν} {k : κ} {v : ν} (hkeys : t.keys.Nodup)
    (h : (k, v) ∈ t.entries) : t.get? k = some v :=
  lookup_eq_some_of_mem hkeys h

/-- If no key is twice in the entries, then those that are left are found unless they fail the test
themselves. -/
theorem lookup_filter {es : List (κ × ν)} (h : (es.map (·.1)).Nodup) (p : κ → ν → Bool) (k : κ) :
    lookup k (es.filter fun e => p e.1 e.2) = (lookup k es).filter (p k) := by
  induction es with
  | nil => rfl
  | cons e es ih =>
    -- A key that the filter drops must not come back from a later pair.
    have hes : lookup e.1 es = none := by
      cases hl : lookup e.1 es with
      | none => rfl
      | some v => grind [mem_of_lookup_eq_some hl]
    grind [lookup]

/-- Filtering a table whose keys are distinct filters its values. -/
theorem get?_filter {t : Table κ ν} (h : t.keys.Nodup) (p : κ → ν → Bool) (k : κ) :
    (t.filter p).get? k = (t.get? k).filter (p k) :=
  lookup_filter h p k

end Table

end RoundScheduler
