import Mathlib.Algebra.GroupWithZero.Nat
import Mathlib.Algebra.Order.BigOperators.Group.List
import Mathlib.Algebra.Order.Group.Nat
import RoundScheduler.Proofs.Sessions

/-!
# What runners do between moves

Between two moves a runner begins its next command, or gives the answer to its last one. This file
counts how often runners still have to do so: a small step that is no move uses up one of these
chores, and a move adds at most those of one new runner.
-/

namespace RoundScheduler

namespace Table

variable {κ ν : Type} {k : κ} {v : ν} {t : Table κ ν} {f : ν → Nat} {g : ν → ν}

/-- The sum of a quantity over the values of a table. -/
def total (f : ν → Nat) (t : Table κ ν) : Nat := (t.entries.map fun e => f e.2).sum

/-- Fewer entries amount to no more. -/
lemma total_filter_le (p : κ → ν → Bool) : (t.filter p).total f ≤ t.total f :=
  (List.filter_sublist.map _).sum_le_sum fun _ _ => Nat.zero_le _

variable [DecidableEq κ]

/-- A value that is set adds no more than itself. -/
lemma total_set_le : (t.set k v).total f ≤ t.total f + f v := by
  have hassign : ∀ es : List (κ × ν), ((assign k v es).map fun e => f e.2).sum ≤
      (es.map fun e => f e.2).sum + f v := by
    intro es
    induction es with
    | nil => simp [assign]
    | cons e es ih =>
      unfold assign
      split <;> simp only [List.map_cons, List.sum_cons] <;> omega
  exact hassign t.entries

/-- A value that is changed changes the sum by as much, if no key is twice in the table. -/
lemma total_modify (hkeys : t.keys.Nodup) (hv : t.get? k = some v) :
    (t.modify k g).total f + f v = t.total f + f (g v) := by
  have hentries : ∀ es : List (κ × ν), (es.map (·.1)).Nodup → lookup k es = some v →
      (es.map fun e => f (if e.1 = k then g e.2 else e.2)).sum + f v =
        (es.map fun e => f e.2).sum + f (g v) := by
    intro es
    induction es with
    | nil => exact fun _ hfound => nomatch hfound
    | cons e es ih =>
      intro hnodup hfound
      obtain ⟨k', v'⟩ := e
      obtain ⟨hfresh, hrest⟩ := List.nodup_cons.mp hnodup
      simp only [List.map_cons, List.sum_cons]
      rw [lookup] at hfound
      split at hfound
      · next hk =>
        -- The other values stay.
        obtain rfl := hk
        obtain rfl := Option.some_inj.mp hfound
        have hothers : es.map (fun e => f (if e.1 = k' then g e.2 else e.2)) =
            es.map fun e => f e.2 :=
          List.map_congr_left fun e he => by
            rw [if_neg fun heq => hfresh (List.mem_map.mpr ⟨e, he, heq⟩)]
        rw [if_pos rfl, hothers]
        omega
      · next hk =>
        have hcount := ih hrest hfound
        rw [if_neg hk]
        omega
  have hmodify : (t.modify k g).total f =
      (t.entries.map fun e => f (if e.1 = k then g e.2 else e.2)).sum :=
    congrArg List.sum (List.map_map ..)
  exact hmodify ▸ hentries t.entries hkeys hv

end Table

/-- How often a runner still has to begin a command, or to give an answer. -/
def Runner.chores (r : Runner) : Nat := 2 * r.todo.length + r.frame.toList.length

namespace Session

/-- How often runners still have to begin commands, or to give answers. -/
def chores (s : Session) : Nat := s.runners.total Runner.chores

variable {s : Session} {a : Agent} {r : Runner} {m : Move} {fresh : Nat}

/-- A runner that changes changes the chores by as much. -/
lemma chores_modifyRunner (htidy : s.Tidy) (hrunner : s.runners.get? a = some r)
    (f : Runner → Runner) : (s.modifyRunner a f).chores + r.chores = s.chores + (f r).chores :=
  Table.total_modify htidy hrunner

/-- A command that is over is one chore less. -/
lemma chores_endCommand (htidy : s.Tidy) (hrunner : s.runners.get? a = some r) {f : Frame}
    (hframe : r.frame = some f) (answer : Answer) :
    ((s.giveAnswer a f.ticket answer).modifyRunner a fun r => { r with frame := none }).chores + 1 =
      s.chores := by
  have hchores := (s.giveAnswer a f.ticket answer).chores_modifyRunner htidy hrunner
    fun r => { r with frame := none }
  have hsame : (s.giveAnswer a f.ticket answer).chores = s.chores := rfl
  simp only [Runner.chores, hframe, Option.toList_some, Option.toList_none, List.length_singleton,
    List.length_nil] at hchores
  omega

/-- A frame that changes is the same chore. -/
lemma chores_changeFrame (htidy : s.Tidy) (hrunner : s.runners.get? a = some r)
    (hframe : r.frame.isSome) (f : Frame) :
    (s.modifyRunner a fun r => { r with frame := some f }).chores = s.chores := by
  obtain ⟨f', hf'⟩ := Option.isSome_iff_exists.mp hframe
  have hchores := chores_modifyRunner htidy hrunner fun r => { r with frame := some f }
  simp only [Runner.chores, hf', Option.toList_some, List.length_singleton] at hchores
  omega

/-- A reply brings no chore. -/
lemma chores_takeReply_le (htidy : s.Tidy) (op : Operation) (reply : Reply) :
    (s.takeReply a op reply).chores ≤ s.chores := by
  unfold takeReply
  split
  · exact Table.total_filter_le _
  split
  · exact Nat.le_refl _
  · next f hf =>
    obtain ⟨r, hrunner, hframe⟩ := Option.bind_eq_some_iff.mp hf
    split
    · exact Nat.le_of_eq (chores_changeFrame htidy hrunner (hframe ▸ rfl) _)
    · exact Nat.le_of_succ_le (Nat.le_of_eq (chores_endCommand htidy hrunner hframe _))

/-- Only a new runner brings chores. -/
lemma chores_adoptSince_le (hfresh : ∀ work, (s.runnerFor work).chores ≤ fresh) (before : Nat) :
    (s.adoptSince before).chores ≤ s.chores + fresh := by
  unfold adoptSince
  split
  · exact Nat.le_add_right _ _
  · split
    · exact Nat.le_trans Table.total_set_le (Nat.add_le_add_left (hfresh _) _)
    · exact Nat.le_add_right _ _

/-- A move brings no more chores than a new runner has. -/
lemma chores_perform_le (htidy : s.Tidy) (hfresh : ∀ work, (s.runnerFor work).chores ≤ fresh) :
    (s.perform a m).chores ≤ s.chores + fresh := by
  unfold perform
  split
  · refine Nat.le_add_right_of_le ?_
    split
    · exact Table.total_filter_le _
    · next f hf =>
      obtain ⟨r, hrunner, hframe⟩ := Option.bind_eq_some_iff.mp hf
      exact Nat.le_of_succ_le (Nat.le_of_eq (chores_endCommand htidy hrunner hframe _))
  · next sys _ =>
    have hadopted := chores_adoptSince_le (s := { s with system := sys }) hfresh
      s.system.state.scheduled
    have htidy' := Tidy.adoptSince (s := { s with system := sys }) htidy s.system.state.scheduled
    dsimp only
    split
    · exact Nat.le_trans (chores_takeReply_le htidy' _ _) hadopted
    · exact hadopted

/-- A command that begins is one chore less: what is left of it is to give its answer. -/
lemma chores_beginCommand_lt (htidy : s.Tidy) (hrunner : s.runners.get? a = some r)
    (hframe : r.frame = none) {ticket ticket' : Nat} {c : Command} {todo : List (Nat × Command)}
    (htodo : r.todo = (ticket', c) :: todo) :
    ((s.modifyRunner a fun r => { r with todo := todo }).beginCommand a ticket c).chores <
      s.chores := by
  have hpopped := chores_modifyRunner htidy hrunner fun r => { r with todo := todo }
  simp only [Runner.chores, htodo, List.length_cons] at hpopped
  have htidy' := htidy.modifyRunner (a := a) fun r => { r with todo := todo }
  have hrunner' := get?_modifyRunner (fun r => { r with todo := todo }) hrunner
  unfold beginCommand
  dsimp only
  split
  · split
    · next f _ =>
      have hbegun := chores_modifyRunner htidy' hrunner' fun r => { r with frame := some f }
      simp only [Runner.chores, hframe, Option.toList_some, Option.toList_none,
        List.length_singleton, List.length_nil] at hbegun
      omega
    · next answer _ =>
      cases c with
      | finish e =>
        have hended := chores_modifyRunner
          (s := (s.modifyRunner a fun r => { r with todo := todo }).giveAnswer a ticket answer)
          htidy' hrunner' fun r => { r with ending := some e }
        have hsame : ((s.modifyRunner a fun r => { r with todo := todo }).giveAnswer a ticket
          answer).chores = (s.modifyRunner a fun r => { r with todo := todo }).chores := rfl
        simp only [Runner.chores] at hended
        dsimp only
        omega
      | _ =>
        change (s.modifyRunner a fun r => { r with todo := todo }).chores < s.chores
        omega
  · change (s.modifyRunner a fun r => { r with todo := todo }).chores < s.chores
    omega

/-- The end of a body is no chore. -/
lemma chores_endBody (htidy : s.Tidy) {t : ThreadId} (hrunner : s.runners.get? (.unit t) = some r)
    (e : Ending) : (s.endBody t r e).chores = s.chores := by
  have hended := chores_modifyRunner htidy hrunner fun r => { r with ending := none }
  have hsame : (s.endBody t r e).chores =
      (s.modifyRunner (.unit t) fun r => { r with ending := none }).chores := by
    unfold endBody
    dsimp only
    split <;> split <;> rfl
  simp only [Runner.chores] at hended
  omega

/-- Whatever a runner does next, it brings no more chores than a new runner has. -/
theorem chores_act_le (htidy : s.Tidy) (hrunner : s.runners.get? a = some r)
    (hfresh : ∀ work, (s.runnerFor work).chores ≤ fresh) :
    (s.act a r).chores ≤ s.chores + fresh := by
  unfold act
  split
  · exact chores_perform_le htidy hfresh
  split
  · exact chores_perform_le htidy hfresh
  split
  · next f hframe =>
    split
    · next op rest _ =>
      have hsame := chores_changeFrame htidy hrunner (hframe ▸ rfl) { f with rest := rest }
      exact hsame ▸ chores_perform_le (htidy.modifyRunner _) hfresh
    · exact Nat.le_add_right_of_le
        (Nat.le_of_succ_le (Nat.le_of_eq (chores_endCommand htidy hrunner hframe _)))
  · next hframe =>
    split
    · next htodo =>
      exact Nat.le_add_right_of_le
        (Nat.le_of_lt (chores_beginCommand_lt htidy hrunner hframe htodo))
    · split
      · next t e _ _ _ =>
        have hscripts : ∀ work, (s.endBody t r e).runnerFor work = s.runnerFor work := by
          intro work
          unfold endBody
          dsimp only
          split <;> split <;> rfl
        exact chores_endBody htidy hrunner e ▸
          chores_perform_le (htidy.endBody t e) fun work => hscripts work ▸ hfresh work
      · exact Nat.le_add_right _ _

end Session

end RoundScheduler
