import RoundScheduler.Proofs.Determinism.Runs

/-!
# Two runs in one round

Within a round a course keeps its number of primaries, and whoever is listed stays on the list. So
if two runs of one agenda are in the same round, after equally many submissions, they agree on the
number of primaries and on how many threads are on the list: what one of them did that the other one
did not do yet makes no difference to that.
-/

namespace RoundScheduler

namespace Course

variable {eligible : ThreadId → Bool} {routine : Nat → Routine} {c c' c₁ c₂ : Course} {a : Label}
  {r : Nat}

/-- Only the beginning of a round changes the round. -/
lemma Fires.round_eq (h : Fires eligible c a c') :
    c'.round = c.round + if a = .next then 1 else 0 := by
  cases h with
  | act t e => exact round_act
  | _ => rfl

/-- One course comes from another by going on once, and its round is not later than a given one. -/
def GoesUpTo (r : Nat) (eligible : ThreadId → Bool) (routine : Nat → Routine) (c c' : Course) :
    Prop :=
  Goes eligible routine c c' ∧ c'.round ≤ r

/-- Rounds do not come back, so a run that ends in a round was in no later one. -/
lemma path_upTo (h : Relation.ReflTransGen (Goes eligible routine) c c') (hr : c'.round ≤ r) :
    Relation.ReflTransGen (GoesUpTo r eligible routine) c c' := by
  induction h with
  | refl => exact .refl
  | tail _ hgoes ih =>
    obtain ⟨hs, a, ha⟩ := hgoes
    exact (ih (Nat.le_trans (Nat.le_add_right _ _) (ha.round_eq ▸ hr))).tail ⟨⟨hs, a, ha⟩, hr⟩

/-- Two runs up to a round can be continued to a common course up to that round. -/
theorem join_upTo (h₁ : Relation.ReflTransGen (GoesUpTo r eligible routine) c c₁)
    (h₂ : Relation.ReflTransGen (GoesUpTo r eligible routine) c c₂) :
    Relation.Join (Relation.ReflTransGen (GoesUpTo r eligible routine)) c₁ c₂ := by
  refine Relation.church_rosser ?_ h₁ h₂
  rintro c c₁ c₂ ⟨⟨hs, a, ha⟩, hr₁⟩ ⟨⟨-, b, hb⟩, hr₂⟩
  by_cases hab : a = b
  · subst hab
    rw [ha.determined hb]
    exact ⟨c₂, .refl, .refl⟩
  · obtain ⟨d, hd₁, hd₂⟩ := diamond hs hab ha hb
    -- At most one of the two ways begins a round, and the other one stays in it.
    have hr : d.round ≤ r := by
      by_cases hnext : a = .next
      · have hb' : b ≠ .next := fun hb' => hab (hnext.trans hb'.symm)
        rw [hd₁.round_eq, if_neg hb']
        exact hr₁
      · rw [hd₂.round_eq, if_neg hnext]
        exact hr₂
    exact ⟨d, .single ⟨⟨hs.fires ha, b, hd₁⟩, hr⟩, .single ⟨⟨hs.fires hb, a, hd₂⟩, hr⟩⟩

/-- What does not change within a round: the number of primaries, and who left the list. -/
structure Akin (c c' : Course) : Prop where
  primaries : c'.live.primaries = c.live.primaries
  departed : c'.listed + c.roster.length = c.listed + c'.roster.length

lemma Fires.akin (h : Fires eligible c a c') (hround : c'.round = c.round) : Akin c c' := by
  cases h with
  | list =>
    refine ⟨rfl, ?_⟩
    simp only [Course.list, List.length_append, List.length_singleton]
    omega
  | look | fill => exact ⟨rfl, rfl⟩
  | next => exact absurd hround (Nat.succ_ne_self _)
  | act t e =>
    refine ⟨?_, by simp⟩
    cases e <;> rfl

/-- Up to the round of a course, nothing of this changes. -/
lemma akin_of_path (h : Relation.ReflTransGen (GoesUpTo c.round eligible routine) c c') :
    c'.round = c.round ∧ Akin c c' := by
  induction h with
  | refl => exact ⟨rfl, rfl, rfl⟩
  | @tail m c' _ hgoes ih =>
    obtain ⟨⟨-, a, ha⟩, hr⟩ := hgoes
    obtain ⟨hround, hakin⟩ := ih
    have hsame : c'.round = m.round :=
      Nat.le_antisymm (hround ▸ hr) (ha.round_eq ▸ Nat.le_add_right _ _)
    have hstep := ha.akin hsame
    have hdeparted := hakin.departed
    have hdeparted' := hstep.departed
    exact ⟨hsame.trans hround, hstep.primaries.trans hakin.primaries, by omega⟩

/-- In one round, with equally many threads listed so far, two runs agree on the number of primaries
and on the length of the list. -/
theorem agree_in_round (h₁ : Relation.ReflTransGen (Goes eligible routine) c c₁)
    (h₂ : Relation.ReflTransGen (Goes eligible routine) c c₂) (hround : c₁.round = c₂.round)
    (hlisted : c₁.listed = c₂.listed) :
    c₁.live.primaries = c₂.live.primaries ∧ c₁.roster.length = c₂.roster.length := by
  obtain ⟨d, hd₁, hd₂⟩ := join_upTo (path_upTo h₁ (Nat.le_refl _))
    (path_upTo h₂ (Nat.le_of_eq hround.symm))
  obtain ⟨-, hakin₁⟩ := akin_of_path hd₁
  rw [hround] at hd₂
  obtain ⟨-, hakin₂⟩ := akin_of_path hd₂
  have hdeparted₁ := hakin₁.departed
  have hdeparted₂ := hakin₂.departed
  exact ⟨hakin₁.primaries.symm.trans hakin₂.primaries, by omega⟩

end Course

/-- Two runs of an agenda that are in the same round after equally many submissions agree on the
number of primaries and on the length of the thread list. -/
theorem Agenda.Reaches.agree_in_round {w : Agenda} {sys₁ sys₂ : System} (h₁ : w.Reaches sys₁)
    (h₂ : w.Reaches sys₂) (hround : sys₁.state.round = sys₂.state.round)
    (hsubmissions : submissions sys₁.returns = submissions sys₂.returns) :
    sys₁.state.live.primaries = sys₂.state.live.primaries ∧
      sys₁.state.threadList.length = sys₂.state.threadList.length := by
  have hconfig : sys₁.config = sys₂.config :=
    h₁.reachable.config_eq.trans h₂.reachable.config_eq.symm
  obtain ⟨start, hstart, hpath₁⟩ := h₁
  obtain ⟨start', hstart', hpath₂⟩ := h₂
  obtain rfl : start = start' := Option.some_inj.mp (hstart.symm.trans hstart')
  obtain ⟨rounds, hshadow⟩ := Shadow.of_start hstart
  have hsound := Shadow.sound_startCourse w rounds
  obtain ⟨c₁, hgoes₁, -, hshadow₁⟩ := Shadow.path hstart hsound hshadow hpath₁
  obtain ⟨c₂, hgoes₂, -, hshadow₂⟩ := Shadow.path hstart hsound hshadow hpath₂
  have hlisted : c₁.listed = c₂.listed := by
    rw [hshadow₁.listed, hshadow₂.listed, hconfig, hsubmissions]
  have hagree := Course.agree_in_round hgoes₁ hgoes₂
    (hshadow₁.mirrors.round.trans (hround.trans hshadow₂.mirrors.round.symm)) hlisted
  rwa [hshadow₁.mirrors.live, hshadow₂.mirrors.live, hshadow₁.mirrors.roster,
    hshadow₂.mirrors.roster] at hagree

end RoundScheduler
