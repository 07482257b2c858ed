import Mathlib.Tactic.Lemma
import RoundScheduler.RoundConfig

/-!
# Passes over the slots

A round starts with some passes over its slots. Whoever retires gives up the steps of its slot that
are left, which are those of the later passes. `keptPasses` is what remains of the passes if some
slots take part in the first few of them only. The steps that were taken stay, and the steps that
are left are filtered, which is what `keepFirst` says of a list cut at any place.
-/

namespace RoundScheduler

/-- One pass over the slots below `n`, where a slot with a limit takes part in so many passes
only. -/
def keptPass (n : Nat) (limit : Slot → Option Nat) (pass : Nat) : List Slot :=
  (List.range n).filter fun slot => (limit slot).all (pass < ·)

/-- The first passes over the slots below `n`, where a slot with a limit takes part in so many
passes only. -/
def keptPasses (n steps : Nat) (limit : Slot → Option Nat) : List Slot :=
  (List.range steps).flatMap (keptPass n limit)

/-- The list with the first `m` occurrences of a slot kept and its later ones dropped. -/
def keepFirst (slot : Slot) : Nat → List Slot → List Slot
  | _, [] => []
  | m, x :: xs =>
    if x = slot then
      match m with
      | 0 => keepFirst slot 0 xs
      | m + 1 => x :: keepFirst slot m xs
    else x :: keepFirst slot m xs

variable {n steps m : Nat} {slot : Slot} {limit limit' : Slot → Option Nat}

/-! ### Dropping later occurrences -/

/-- To keep no step of a slot is to strip it. -/
lemma keepFirst_zero (xs : List Slot) : keepFirst slot 0 xs = xs.filter (· ≠ slot) := by
  induction xs with
  | nil => rfl
  | cons x xs ih => grind [keepFirst]

/-- The first steps of a slot are kept in the first list, and what is missing in the second one. -/
lemma keepFirst_append (xs ys : List Slot) (m : Nat) :
    keepFirst slot m (xs ++ ys) = keepFirst slot m xs ++ keepFirst slot (m - xs.count slot) ys := by
  induction xs generalizing m with
  | nil => simp [keepFirst]
  | cons x xs ih =>
    cases m with
    | zero => grind [keepFirst]
    | succ m => grind [keepFirst]

/-- A slot with no more steps than are kept loses none. -/
lemma keepFirst_of_count_le {xs : List Slot} (h : xs.count slot ≤ m) :
    keepFirst slot m xs = xs := by
  induction xs generalizing m with
  | nil => rfl
  | cons x xs ih =>
    cases m with
    | zero => grind [keepFirst]
    | succ m => grind [keepFirst]

/-- Keeping as many occurrences as the first part has leaves that part as it is and empties the
rest of them. -/
lemma keepFirst_count_append (xs ys : List Slot) :
    keepFirst slot (xs.count slot) (xs ++ ys) = xs ++ ys.filter (· ≠ slot) := by
  rw [keepFirst_append, keepFirst_of_count_le (Nat.le_refl _), Nat.sub_self, keepFirst_zero]

/-! ### Limits -/

/-- The last pass comes last. -/
lemma keptPasses_succ (n steps : Nat) (limit : Slot → Option Nat) :
    keptPasses n (steps + 1) limit = keptPasses n steps limit ++ keptPass n limit steps := by
  simp [keptPasses, List.range_succ]

/-- Without limits all passes are complete. -/
lemma keptPasses_unlimited (n steps : Nat) :
    keptPasses n steps (fun _ => none) = RoundConfig.passes n steps := by
  induction steps with
  | zero => rfl
  | succ steps ih =>
    rw [keptPasses_succ, ih, RoundConfig.passes, RoundConfig.passes, List.replicate_succ',
      List.flatten_concat]
    simp [keptPass]

/-- What is kept depends on the limits of the slots only. -/
lemma keptPasses_congr (h : ∀ slot < n, limit slot = limit' slot) :
    keptPasses n steps limit = keptPasses n steps limit' := by
  have hpass : keptPass n limit = keptPass n limit' := by
    funext pass
    exact List.filter_congr fun slot hslot => by rw [h slot (List.mem_range.mp hslot)]
  rw [keptPasses, hpass, keptPasses]

/-- A slot has at most one step in a pass. -/
lemma count_keptPass_le (n : Nat) (limit : Slot → Option Nat) (pass : Nat) (slot : Slot) :
    (keptPass n limit pass).count slot ≤ 1 :=
  List.nodup_iff_count.mp (List.nodup_range.filter _) slot

/-- A slot takes at most one step in each pass. -/
lemma count_keptPasses_le (n steps : Nat) (limit : Slot → Option Nat) (slot : Slot) :
    (keptPasses n steps limit).count slot ≤ steps := by
  induction steps with
  | zero => simp [keptPasses]
  | succ steps ih =>
    rw [keptPasses_succ, List.count_append]
    exact Nat.add_le_add ih (count_keptPass_le n limit steps slot)

/-- A slot without a limit takes one step in each pass. -/
lemma count_keptPasses_of_free (hslot : slot < n) (hfree : limit slot = none) (steps : Nat) :
    (keptPasses n steps limit).count slot = steps := by
  induction steps with
  | zero => simp [keptPasses]
  | succ steps ih =>
    have hmem : slot ∈ keptPass n limit steps :=
      List.mem_filter.mpr ⟨List.mem_range.mpr hslot, by simp [hfree]⟩
    have hpos := List.count_pos_iff.mpr hmem
    have hle := count_keptPass_le n limit steps slot
    rw [keptPasses_succ, List.count_append, ih]
    omega

/-- Giving a limit to a slot without one keeps the steps of its first passes. -/
lemma keptPasses_limit (hslot : slot < n) (hfree : limit slot = none) (m : Nat) :
    keptPasses n steps (fun u => if u = slot then some m else limit u) =
      keepFirst slot m (keptPasses n steps limit) := by
  induction steps with
  | zero => rfl
  | succ steps ih =>
    rw [keptPasses_succ, keptPasses_succ, keepFirst_append, ih,
      count_keptPasses_of_free hslot hfree]
    congr 1
    by_cases hm : steps < m
    · -- The pass is one of the first, so the slot keeps its step in it.
      have hcount := count_keptPass_le n limit steps slot
      rw [keepFirst_of_count_le (by omega)]
      refine List.filter_congr fun u _ => ?_
      by_cases hu : u = slot <;> simp [hu, hfree, hm]
    · rw [Nat.sub_eq_zero_of_le (Nat.le_of_not_lt hm), keepFirst_zero, keptPass, keptPass,
        List.filter_filter]
      refine List.filter_congr fun u _ => ?_
      by_cases hu : u = slot <;> simp [hu, hm]

/-! ### The first pass -/

/-- The passes begin with the first one. -/
lemma keptPass_prefix_keptPasses (n : Nat) (limit : Slot → Option Nat) (hsteps : 0 < steps) :
    keptPass n limit 0 <+: keptPasses n steps limit := by
  obtain ⟨later, rfl⟩ := Nat.exists_eq_succ_of_ne_zero (Nat.ne_of_gt hsteps)
  rw [keptPasses, List.range_succ_eq_map, List.flatMap_cons]
  exact List.prefix_append _ _

/-- When a slot that had a step before is next again, the first pass is over. -/
lemma keptPass_subset_of_next_again {taken left : List Slot} (hsteps : 0 < steps)
    (h : taken ++ slot :: left = keptPasses n steps limit) (hslot : slot ∈ taken) :
    keptPass n limit 0 ⊆ taken := by
  have hfirst : keptPass n limit 0 <+: (taken ++ [slot]) ++ left := by
    rw [List.append_assoc, List.singleton_append, h]
    exact keptPass_prefix_keptPasses n limit hsteps
  rcases List.prefix_or_prefix_of_prefix hfirst (List.prefix_append _ _) with hover | hinner
  · intro u hu
    rcases List.mem_append.mp (hover.subset hu) with hu | hu
    · exact hu
    · exact List.mem_singleton.mp hu ▸ hslot
  · -- The first pass would have two steps of the slot.
    have hnodup : (taken ++ [slot]).Nodup := (List.nodup_range.filter _).sublist hinner.sublist
    have hlast : slot ∈ [slot] := List.mem_singleton.mpr rfl
    exact absurd rfl ((List.nodup_append.mp hnodup).2.2 slot hslot slot hlast)

end RoundScheduler
