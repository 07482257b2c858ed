import Mathlib.Data.List.Basic
import RoundScheduler.Proofs.Determinism.Agenda
import RoundScheduler.Proofs.State.Seating
import RoundScheduler.Workload

/-!
# The plan of the lock workload

The units of the workload come in groups as large as a round. A group stays together: in each of its
rounds every unit has the same number of turns, one per critical section, and all of its units
retire in the last one. This file says which turn is the next one after any number of turns of a
group, and states the turns, the owners of the lock and the starts of rounds in closed form.
-/

namespace RoundScheduler

/-! ### Slots that take steps in turn -/

/-- How many of the first `x` steps belong to a slot, if `n` slots take them in turn. -/
def stepsInTurn (n x slot : Nat) : Nat := x / n + if slot < x % n then 1 else 0

section Steps

variable {n x slot : Nat}

/-- The next step in turn is that of one slot. -/
lemma stepsInTurn_succ (hn : 0 < n) (hslot : slot < n) :
    stepsInTurn n (x + 1) slot = stepsInTurn n x slot + if slot = x % n then 1 else 0 := by
  have hx := Nat.div_add_mod x n
  have hlt := Nat.mod_lt x hn
  rcases Nat.lt_or_eq_of_le (Nat.succ_le_of_lt hlt) with hinner | hlast
  · -- The pass goes on.
    obtain ⟨hdiv, hmod⟩ : (x + 1) / n = x / n ∧ (x + 1) % n = x % n + 1 :=
      (Nat.div_mod_unique hn).mpr ⟨by omega, hinner⟩
    rw [stepsInTurn, stepsInTurn, hdiv, hmod]
    grind
  · -- The pass ends with this step.
    obtain ⟨hdiv, hmod⟩ : (x + 1) / n = x / n + 1 ∧ (x + 1) % n = 0 :=
      (Nat.div_mod_unique hn).mpr ⟨by rw [Nat.mul_add, Nat.mul_one]; omega, hn⟩
    rw [stepsInTurn, stepsInTurn, hdiv, hmod]
    grind

/-- After some whole passes every slot had a step in each of them. -/
lemma stepsInTurn_mul (hn : 0 < n) (p slot : Nat) : stepsInTurn n (p * n) slot = p := by
  simp [stepsInTurn, Nat.mul_div_cancel _ hn]

/-- The slot that is next had a step in each of the passes that are over. -/
lemma stepsInTurn_mod (n x : Nat) : stepsInTurn n x (x % n) = x / n := by
  simp [stepsInTurn]

/-- Every slot had a step in each of the passes that are over. -/
lemma div_le_stepsInTurn (n x slot : Nat) : x / n ≤ stepsInTurn n x slot :=
  Nat.le_add_right _ _

/-- No slot had a step before the first one. -/
lemma stepsInTurn_zero (n slot : Nat) : stepsInTurn n 0 slot = 0 := by simp [stepsInTurn]

/-- After some passes the steps go on as from the first one. -/
lemma stepsInTurn_mul_add (hn : 0 < n) (p y slot : Nat) :
    stepsInTurn n (p * n + y) slot = p + stepsInTurn n y slot := by
  rw [stepsInTurn, stepsInTurn, Nat.mul_comm, Nat.mul_add_div hn, Nat.mul_add_mod, Nat.add_assoc]

/-- Within some passes no slot has more steps than there are passes. -/
lemma stepsInTurn_le (hn : 0 < n) {p : Nat} (hx : x ≤ p * n) : stepsInTurn n x slot ≤ p := by
  rcases Nat.lt_or_eq_of_le hx with hlt | rfl
  · have hdiv : x / n < p := Nat.div_lt_of_lt_mul (Nat.mul_comm p n ▸ hlt)
    rw [stepsInTurn]
    split <;> omega
  · exact Nat.le_of_eq (stepsInTurn_mul hn p slot)

/-- The first slot has a step as soon as there is one. -/
lemma stepsInTurn_pos (hx : 0 < x) : 0 < stepsInTurn n x 0 := by
  rw [stepsInTurn]
  by_cases hmod : 0 < x % n
  · rw [if_pos hmod]
    exact Nat.succ_pos _
  · have hdiv := Nat.div_add_mod x n
    rw [Nat.eq_zero_of_not_pos hmod, Nat.add_zero] at hdiv
    exact Nat.add_pos_left (Nat.pos_of_mul_pos_left (hdiv ▸ hx)) _

/-- As long as the first slot had no step in another pass, the passes are not over. -/
lemma le_mul_of_stepsInTurn_le (hn : 0 < n) {p : Nat} (h : stepsInTurn n x 0 ≤ p) :
    x ≤ p * n := by
  by_contra hover
  obtain ⟨y, rfl⟩ := Nat.exists_eq_add_of_lt (Nat.lt_of_not_le hover)
  rw [Nat.add_assoc, stepsInTurn_mul_add hn] at h
  exact Nat.not_lt.mpr h (Nat.lt_add_of_pos_right (stepsInTurn_pos y.succ_pos))

/-- If all slots have had equally many steps, their last pass is over. -/
lemma eq_mul_of_stepsInTurn (hn : 0 < n) {p : Nat} (h : ∀ slot < n, stepsInTurn n x slot = p) :
    x = p * n := by
  have hnext : x / n = p := (stepsInTurn_mod n x).symm.trans (h _ (Nat.mod_lt x hn))
  refine Nat.le_antisymm (le_mul_of_stepsInTurn_le hn (Nat.le_of_eq (h 0 hn))) ?_
  exact hnext ▸ Nat.div_mul_le_self x n

/-- A slot without a step among the first `p` passes has its next one in them. -/
lemma exists_step_of_stepsInTurn_lt (hslot : slot < n) {p : Nat} (h : stepsInTurn n x slot < p) :
    ∃ y, x ≤ y ∧ y < p * n ∧ y % n = slot := by
  have hx := Nat.div_add_mod x n
  have hlt := Nat.mod_lt x (Nat.zero_lt_of_lt hslot)
  refine ⟨stepsInTurn n x slot * n + slot, ?_, ?_, ?_⟩
  · rw [stepsInTurn]
    split
    · have hle : x / n * n + n = (x / n + 1) * n := by rw [Nat.add_mul, Nat.one_mul]
      rw [Nat.mul_comm] at hx
      omega
    · rw [Nat.add_zero, Nat.mul_comm]
      omega
  · calc stepsInTurn n x slot * n + slot < stepsInTurn n x slot * n + n := by omega
      _ = (stepsInTurn n x slot + 1) * n := by rw [Nat.add_mul, Nat.one_mul]
      _ ≤ p * n := Nat.mul_le_mul_right n h
  · rw [Nat.mul_comm, Nat.mul_add_mod, Nat.mod_eq_of_lt hslot]

end Steps

/-! ### Passes by position -/

/-- What is done for every position of some passes is done pass by pass. -/
lemma map_range_mul {α : Type} (p n : Nat) (f : Nat → α) :
    (List.range (p * n)).map f =
      (List.range p).flatMap fun a => (List.range n).map fun i => f (a * n + i) := by
  induction p with
  | zero => simp
  | succ p ih =>
    rw [Nat.add_mul, Nat.one_mul, List.range_add, List.map_append, ih, List.range_succ,
      List.flatMap_append]
    simp [Function.comp_def]

/-- What `f` gives in the blocks below `g`, of `len` positions each, and at the first `x` positions
of the block `g`. -/
def inBlocks {α : Type} (len : Nat) (f : Nat → Nat → α) (g x : Nat) : List α :=
  ((List.range g).flatMap fun b => (List.range len).map (f b)) ++ (List.range x).map (f g)

section Blocks

variable {α : Type} {len : Nat} {f : Nat → Nat → α} {g m x : Nat}

/-- Another item of the block comes last. -/
lemma inBlocks_succ : inBlocks len f g (x + 1) = inBlocks len f g x ++ [f g x] := by
  rw [inBlocks, inBlocks, List.range_succ, List.map_append, List.append_assoc]
  rfl

/-- A full block is followed by an empty one. -/
lemma inBlocks_full : inBlocks len f g len = inBlocks len f (g + 1) 0 := by
  simp [inBlocks, List.range_succ, List.flatMap_append]

/-- Some blocks begin more blocks. -/
lemma inBlocks_zero_initial (h : g ≤ m) : inBlocks len f g 0 <+: inBlocks len f m 0 := by
  obtain ⟨d, rfl⟩ := Nat.exists_eq_add_of_le h
  simp [inBlocks, List.range_add, List.flatMap_append]

/-- Some blocks and a part of another one begin enough blocks. -/
lemma inBlocks_initial (hx : x ≤ len) (hg : g < m) : inBlocks len f g x <+: inBlocks len f m 0 := by
  refine List.IsPrefix.trans ?_ (inBlocks_zero_initial (Nat.succ_le_of_lt hg))
  obtain ⟨d, rfl⟩ := Nat.exists_eq_add_of_le hx
  rw [← inBlocks_full, inBlocks, inBlocks, List.range_add, List.map_append, ← List.append_assoc]
  exact List.prefix_append ..

end Blocks

namespace RoundConfig

variable {n steps y : Nat}

/-- The passes over the slots, by position. -/
lemma passes_eq_map (n steps : Nat) : passes n steps = (List.range (steps * n)).map (· % n) := by
  have hpass : ∀ a, (List.range n).map (fun i => (a * n + i) % n) = List.range n := fun a =>
    calc (List.range n).map (fun i => (a * n + i) % n) = (List.range n).map id := by
          refine List.map_congr_left fun i hi => ?_
          rw [Nat.mul_comm, Nat.mul_add_mod, Nat.mod_eq_of_lt (List.mem_range.mp hi), id]
      _ = List.range n := List.map_id _
  rw [map_range_mul, passes, List.flatMap, List.map_congr_left fun a _ => hpass a,
    List.map_const', List.length_range]

/-- What is left of some passes begins with the slot that is next. -/
lemma drop_passes (hy : y < steps * n) :
    (passes n steps).drop y = y % n :: (passes n steps).drop (y + 1) := by
  have hlen : y < (passes n steps).length := (length_passes n steps).symm ▸ hy
  rw [List.drop_eq_getElem_cons hlen]
  simp [passes_eq_map]

/-- A slot that has not had a step in each pass has one left. -/
lemma mem_drop_passes {slot : Nat} (hslot : slot < n) (h : stepsInTurn n y slot < steps) :
    slot ∈ (passes n steps).drop y := by
  obtain ⟨z, hyz, hz, rfl⟩ := exists_step_of_stepsInTurn_lt hslot h
  rw [passes_eq_map, ← List.map_drop, List.mem_map]
  refine ⟨z, ?_, rfl⟩
  rw [List.mem_iff_getElem?]
  exact ⟨z - y, by simp [Nat.add_sub_cancel' hyz, hz]⟩

end RoundConfig

/-! ### What the units do -/

/-- What a routine asks for when it calls an operation, if routines call it at all. -/
def Operation.order? : Operation → Option Order
  | turn => some (.step .turn)
  | lock l => some (.step (.lock l))
  | reconfigure r => some (.step (.reconfigure r))
  | unlock l => some (.unlock l)
  | _ => none

/-- The routine of a unit that carries out a script and breaks off where it is refused
something. -/
def Script.routine (script : Script) : Routine :=
  (script.commands.flatMap Command.operations).filterMap fun op => op.order?.map (⟨·, true⟩)

namespace Workload

/-- The lock of the workload, which is the first lock of its scheduler. -/
def lock : LockId := ⟨0⟩

/-- What is left to do before some critical sections. -/
def sections (n : Nat) : Routine :=
  (List.replicate n [⟨.step (.lock lock), true⟩, ⟨.unlock lock, true⟩]).flatten

/-- What is left before one more critical section begins with that section. -/
lemma sections_succ (n : Nat) :
    sections (n + 1) = ⟨.step (.lock lock), true⟩ :: ⟨.unlock lock, true⟩ :: sections n := by
  rw [sections, List.replicate_succ, List.flatten_cons]
  rfl

variable (w : Workload) (c : Config)

/-- The commands of a unit are the operations that its critical sections call. -/
lemma commands_script : (w.script lock).commands =
    (sections w.criticalSections).map fun i => .operation i.order.operation := by
  simp only [script, sections, List.map_flatten, List.map_replicate]
  rfl

/-- What critical sections call asks for them. -/
lemma filterMap_sections (n : Nat) : ((sections n).map (·.order.operation)).filterMap
    (fun op => op.order?.map (⟨·, true⟩)) = sections n := by
  induction n with
  | zero => rfl
  | succ n ih =>
    rw [sections_succ]
    exact congrArg (⟨.step (.lock lock), true⟩ :: ⟨.unlock lock, true⟩ :: ·) ih

/-- The script of a unit is a routine of critical sections. -/
lemma routine_script : (w.script lock).routine = sections w.criticalSections := by
  rw [Script.routine, commands_script, List.flatMap_map]
  exact (congrArg _ List.map_eq_flatMap.symm).trans (filterMap_sections _)

/-- The number of units that fill whole rounds. -/
def size : Nat := w.groups c.primaries * c.primaries

/-- The padded number of units is that number, if it is a word. -/
lemma paddedUnits_eq {n : Nat} (h : w.paddedUnits c.primaries = .ok n) : n = w.size c := by
  rw [paddedUnits, Word.mul?] at h
  split at h
  · exact (Except.ok.inj h).symm
  · cases h

/-- The workload on a scheduler that nobody else uses. -/
def agenda : Agenda where
  config := c
  eligible _ := true
  locks := 1
  units := List.replicate (w.size c) (w.script lock).routine

/-- Every unit of the agenda does its critical sections. -/
lemma routine_agenda {i : Nat} (hi : i < w.size c) :
    (w.agenda c).routine i = sections w.criticalSections := by
  simp [Agenda.routine, agenda, List.getD, hi, routine_script]

/-! ### When they do it -/

/-- The rounds of each group: as many as its critical sections need, and one without any turns if
there are none. -/
def roundsPerGroup : Nat :=
  max 1 ((w.criticalSections + (c.stepsPerPrimary - 1)) / c.stepsPerPrimary)

/-- Every group has a round, even if it has no critical section. -/
lemma roundsPerGroup_pos : 0 < w.roundsPerGroup c :=
  Nat.lt_of_lt_of_le Nat.one_pos (Nat.le_max_left ..)

variable {w c} in
/-- Before the last round of a group there are critical sections left. -/
lemma mul_lt_of_succ_lt {q : Nat} (hsteps : 0 < c.stepsPerPrimary)
    (hq : q + 1 < w.roundsPerGroup c) : (q + 1) * c.stepsPerPrimary < w.criticalSections := by
  have hceil : q + 2 ≤ (w.criticalSections + (c.stepsPerPrimary - 1)) / c.stepsPerPrimary := by
    rw [roundsPerGroup] at hq
    omega
  have hmul := (Nat.le_div_iff_mul_le hsteps).mp hceil
  have hsplit : (q + 2) * c.stepsPerPrimary = (q + 1) * c.stepsPerPrimary + c.stepsPerPrimary :=
    Nat.succ_mul ..
  omega

/-- The rounds of a group have steps for all of its critical sections. -/
lemma le_roundsPerGroup_mul (hsteps : 0 < c.stepsPerPrimary) :
    w.criticalSections ≤ w.roundsPerGroup c * c.stepsPerPrimary := by
  have hceil := Nat.lt_div_mul_add hsteps (a := w.criticalSections + (c.stepsPerPrimary - 1))
  have hle : (w.criticalSections + (c.stepsPerPrimary - 1)) / c.stepsPerPrimary ≤
      w.roundsPerGroup c := Nat.le_max_right ..
  have hmul := Nat.mul_le_mul_right c.stepsPerPrimary hle
  omega

/-- The turn of a group after some others. -/
def turnAt (g x : Nat) : Nat × ThreadId × Slot :=
  (g * w.roundsPerGroup c + x / c.primaries / c.stepsPerPrimary + 1,
    ⟨g * c.primaries + x % c.primaries⟩, x % c.primaries)

/-- The start of a round of a group. -/
def startAt (g q : Nat) : Nat × List ThreadId × List Slot :=
  (g * w.roundsPerGroup c + q + 1,
    (List.range c.primaries).map fun i => ⟨g * c.primaries + i⟩,
    RoundConfig.passes c.primaries c.stepsPerPrimary)

/-- All turns: group by group, every critical section of every unit of the group. -/
def turns : List (Nat × ThreadId × Slot) :=
  (List.range (w.groups c.primaries)).flatMap fun g =>
    (List.range w.criticalSections).flatMap fun p =>
      (List.range c.primaries).map fun i =>
        (g * w.roundsPerGroup c + p / c.stepsPerPrimary + 1, ⟨g * c.primaries + i⟩, i)

/-- All owners of the lock, in the same order. -/
def grants : List ThreadId :=
  (List.range (w.groups c.primaries)).flatMap fun g =>
    (List.range w.criticalSections).flatMap fun _ =>
      (List.range c.primaries).map fun i => ⟨g * c.primaries + i⟩

/-- All starts of rounds. -/
def starts : List (Nat × List ThreadId × List Slot) :=
  (List.range (w.groups c.primaries)).flatMap fun g =>
    (List.range (w.roundsPerGroup c)).map (w.startAt c g)

/-- The lock is planned for those who take the turns. -/
lemma grants_eq : w.grants c = (w.turns c).map (·.2.1) := by
  simp [grants, turns, List.map_flatMap, Function.comp_def]

/-- Every group has its number of rounds. -/
lemma length_starts : (w.starts c).length = w.groups c.primaries * w.roundsPerGroup c := by
  simp [starts, List.length_flatMap, List.map_const']

/-- The turns before those of a group, and some turns of the group. -/
def turnsUntil : Nat → Nat → List (Nat × ThreadId × Slot) :=
  inBlocks (w.criticalSections * c.primaries) (w.turnAt c)

/-- The starts of rounds before those of a group, and some of the group. -/
def startsUntil : Nat → Nat → List (Nat × List ThreadId × List Slot) :=
  inBlocks (w.roundsPerGroup c) (w.startAt c)

/-- The plan is what happened when all groups are through. -/
lemma turns_eq (hprimaries : 0 < c.primaries) :
    w.turns c = w.turnsUntil c (w.groups c.primaries) 0 := by
  have hdiv : ∀ p i : Nat, i < c.primaries → (p * c.primaries + i) / c.primaries = p ∧
      (p * c.primaries + i) % c.primaries = i := fun p i hi =>
    (Nat.div_mod_unique hprimaries).mpr ⟨by rw [Nat.mul_comm, Nat.add_comm], hi⟩
  rw [turnsUntil, inBlocks, List.range_zero, List.map_nil, List.append_nil, turns]
  refine List.flatMap_congr fun g _ => ?_
  rw [map_range_mul]
  refine List.flatMap_congr fun p _ => List.map_congr_left fun i hi => ?_
  obtain ⟨hdiv, hmod⟩ := hdiv p i (List.mem_range.mp hi)
  rw [turnAt, hdiv, hmod]

/-- The planned starts of rounds are those when all groups are through. -/
lemma starts_eq : w.starts c = w.startsUntil c (w.groups c.primaries) 0 := by
  simp [starts, startsUntil, inBlocks]

end Workload

end RoundScheduler
