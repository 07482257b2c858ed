import RoundScheduler.Proofs.FillRound.Counts

/-!
# Filling rounds

A client that fills a round adds as many units without work as the round lacks primaries when it
counts them. In a round that number depends only on what was submitted before, so as long as the
client counts in the same rounds, its calls return the same threads however the threads interleave
with it. In another round it may count something else.
-/

namespace RoundScheduler

open State

/-! ### Schedulers that cannot name their workers -/

/-- Nobody was told of a thread or is listed, and nobody counts primaries. -/
structure Unstaffed (sys : System) : Prop where
  returns : ∀ r ∈ sys.returns, ∀ t, r.reply ≠ .thread t
  listings : sys.state.listings = []
  submissions : ∀ a first, sys.submission? a ≠ some (.count first)

namespace Unstaffed

variable {sys : System}

lemma apply (h : Unstaffed sys) {a : Agent} {op : Operation} {o : Outcome}
    (hlistings : (o.state sys.state).listings = sys.state.listings)
    (hreply : ∀ s' t, o ≠ .reply s' (.thread t))
    (hcount : ∀ s' first, o ≠ .goto s' (.submission (.count first)) ∧
      o ≠ .pause s' (.submission (.count first))) : Unstaffed (sys.apply a op o) := by
  refine ⟨fun r hr t => ?_, ?_, fun b first hb => ?_⟩
  · rw [System.returns_apply] at hr
    rcases List.mem_append.mp hr with hr | hr
    · cases o with
      | reply s' reply =>
        cases List.mem_singleton.mp hr
        rintro rfl
        exact hreply s' t rfl
      | _ => cases hr
    · exact h.returns r hr t
  · rw [System.state_apply, hlistings]
    exact h.listings
  · rw [System.submission?_apply rfl] at hb
    split at hb
    · cases o with
      | sleep => exact h.submissions a first hb
      | goto s' point =>
        cases point with
        | thread => cases hb
        | submission p =>
          cases hb
          exact (hcount s' first).1 rfl
      | pause s' point =>
        cases point with
        | thread => cases hb
        | submission p =>
          cases hb
          exact (hcount s' first).2 rfl
      | reply => cases hb
    · exact h.submissions b first hb

/-- Without names for workers it stays like that. -/
theorem of_reachable {c : Config} (hnames : c.namesWorkers = false)
    (h : System.Reachable c sys) : Unstaffed sys := by
  induction h using System.Reachable.induction with
  | initial sys h =>
    obtain ⟨rounds, -, rfl⟩ := Invariant.exists_rounds_of_initial h
    refine ⟨fun r hr => ?_, rfl, fun a first ha => ?_⟩
    · cases hr
    · cases ha
  | step sys sys' hreach hs ih =>
    have hinv := Invariant.of_reachable hreach
    obtain ⟨eligible, m, hm⟩ := hs
    cases hinv.transition hm with
    | call a op o hinside hidle halive hlocks ho =>
      exact ih.apply (ho.change (w := none)).listings_eq (by cases ho <;> simp)
        (by cases ho <;> simp)
    | stretch t op ph o hinside hcall hop ho =>
      exact ih.apply (hinv.stretch_change hcall hop ho).listings_eq (by cases ho <;> simp)
        (by cases ho <;> simp)
    | intake a op p o hinside hcall ho =>
      have hunnamed : sys.config.namesWorkers = false := hreach.config_eq ▸ hnames
      cases ho with
      | listed _ _ hn | listedToCount _ _ hn | listedWithMore _ _ _ _ hn | listedLast _ _ _ hn =>
        simp [hunnamed] at hn
      | lacking | sufficient =>
        exact absurd (Submitters.submission?_of_call hcall) (ih.submissions a _)
      | _ => exact ih.apply rfl (by simp) (by simp)
    | enter => exact ⟨ih.returns, ih.listings, ih.submissions⟩
    | newLock =>
      exact ⟨ih.returns, (Change.newLock (w := none)).listings_eq.trans ih.listings, ih.submissions⟩
    | dropLock l hinside hl hunused =>
      have hc : Change sys.state none (sys.state.dropLock l) :=
        .dropLock l hl (hinv.unlinked hunused)
      exact ⟨ih.returns, hc.listings_eq.trans ih.listings, ih.submissions⟩

end Unstaffed

/-! ### Every interleaving -/

/-- One client submits units and fills rounds, in an order that is fixed. In every two runs in which
it counts the primaries that a round lacks in the same round, its calls return the same threads, and
the same units, with or without work, are listed as these threads. -/
theorem fill_round_deterministic_within_rounds {d : Docket} {sys₁ sys₂ : System}
    {counts₁ counts₂ : List Count} (h₁ : d.Counted sys₁ counts₁) (h₂ : d.Counted sys₂ counts₂)
    (hrounds : SameRounds counts₁ counts₂) :
    (∀ i t₁ t₂, ⟨.client 0, d.operation i, .thread t₁⟩ ∈ sys₁.returns →
      ⟨.client 0, d.operation i, .thread t₂⟩ ∈ sys₂.returns → t₁ = t₂) ∧
    (sys₁.state.listings <+: sys₂.state.listings ∨
      sys₂.state.listings <+: sys₁.state.listings) := by
  cases hnames : d.config.namesWorkers with
  | false =>
    have hunstaffed := Unstaffed.of_reachable hnames h₁.reachable
    refine ⟨fun i t₁ t₂ ht₁ => absurd rfl (hunstaffed.returns _ ht₁ t₁), .inl ?_⟩
    rw [hunstaffed.listings]
    exact List.nil_prefix
  | true =>
    refine ⟨fun i t₁ t₂ ht₁ ht₂ => ?_, ?_⟩
    · obtain ⟨i₁, hi₁, hop₁, rfl⟩ := (h₁.serves hnames).answers _ ht₁ t₁ rfl rfl
      obtain ⟨i₂, hi₂, hop₂, rfl⟩ := (h₂.serves hnames).answers _ ht₂ t₂ rfl rfl
      obtain rfl := Docket.operation_injective hop₁
      obtain rfl := Docket.operation_injective hop₂
      rw [h₁.roll_eq h₂ hnames hrounds (Nat.le_of_lt hi₁) (Nat.le_of_lt hi₂)]
    · rcases Nat.le_total (Agenda.submissions sys₁.returns) (Agenda.submissions sys₂.returns)
        with hle | hle
      · exact h₁.listings_comparable h₂ hnames hrounds hle
      · exact (h₂.listings_comparable h₁ hnames hrounds.symm hle).symm

/-! ### A round that grows -/

/-- A client fills a round, fills one again and submits a unit. The first unit asks for rounds of
four primaries instead of two. -/
def growing : Docket where
  config := { primaries := 2 }
  eligible _ := true
  locks := 0
  errands := [{ fills := true, routine := [⟨.step (.reconfigure (.primaries 4)), true⟩] },
    { fills := true, routine := [] }, { routine := [] }]

/-- The moves by which the first round of two primaries is filled. -/
def fillFirst : List Move :=
  [.call (.client 0) (.fill (.scripted 0)), .advance, .advance, .enter (.client 0), .advance,
    .enter (.client 0), .advance, .advance]

/-- The moves by which the first thread asks, both threads retire, and nobody is left. -/
def askFirst : List Move :=
  [.call (.unit ⟨0⟩) (.reconfigure (.primaries 4)), .advance, .advance, .advance, .advance,
    .advance, .call (.unit ⟨0⟩) .retire, .advance, .advance, .advance,
    .call (.unit ⟨1⟩) .retire, .advance, .advance, .advance, .advance]

/-- The moves by which the other thread retires before that. -/
def retireFirst : List Move :=
  [.call (.unit ⟨1⟩) .retire, .advance, .advance, .advance, .advance, .advance, .advance,
    .call (.unit ⟨0⟩) (.reconfigure (.primaries 4)), .advance, .advance,
    .call (.unit ⟨0⟩) .retire, .advance, .advance, .advance, .advance]

/-- The moves by which a round of four primaries is filled, and a unit is submitted. -/
def fillAgain : List Move :=
  [.call (.client 0) (.fill (.scripted 1)), .advance, .advance, .enter (.client 0), .advance,
    .enter (.client 0), .advance, .advance, .enter (.client 0), .advance, .advance,
    .enter (.client 0), .advance, .advance,
    .call (.client 0) (.submit (.scripted 2)), .advance, .advance]

/-- In both orders the client finds that the second round lacks three primaries. -/
theorem fill_round_deterministic_within_rounds_growing :
    ∃ sys₁ counts₁ sys₂ counts₂,
      growing.run? (fillFirst ++ askFirst ++ fillAgain) = some (sys₁, counts₁) ∧
      growing.run? (fillFirst ++ retireFirst ++ fillAgain) = some (sys₂, counts₂) ∧
      sys₁.state.events ≠ sys₂.state.events ∧ ⟨1, 2, 3⟩ ∈ counts₁ ∧
      (∀ c₁ ∈ counts₁, ∀ c₂ ∈ counts₂, c₁.errand = c₂.errand → c₁.round = c₂.round) ∧
      ⟨.client 0, .submit (.scripted 2), .thread ⟨6⟩⟩ ∈ sys₁.returns ∧
      (∀ t, ⟨.client 0, .submit (.scripted 2), .thread t⟩ ∈ sys₂.returns → ⟨6⟩ = t) ∧
      (sys₁.state.listings <+: sys₂.state.listings ∨
        sys₂.state.listings <+: sys₁.state.listings) := by
  obtain ⟨⟨sys₁, counts₁⟩, hrun₁, ⟨sys₂, counts₂⟩, hrun₂, hevents, hcount, hrounds, hreturn⟩ :
      ∃ r₁ ∈ growing.run? (fillFirst ++ askFirst ++ fillAgain),
        ∃ r₂ ∈ growing.run? (fillFirst ++ retireFirst ++ fillAgain),
          r₁.1.state.events ≠ r₂.1.state.events ∧ ⟨1, 2, 3⟩ ∈ r₁.2 ∧
          (∀ c₁ ∈ r₁.2, ∀ c₂ ∈ r₂.2, c₁.errand = c₂.errand → c₁.round = c₂.round) ∧
          ⟨.client 0, .submit (.scripted 2), .thread ⟨6⟩⟩ ∈ r₁.1.returns := by
    decide +kernel
  obtain ⟨hthread, hlistings⟩ := fill_round_deterministic_within_rounds
    (Docket.counted_of_run? hrun₁) (Docket.counted_of_run? hrun₂) hrounds
  exact ⟨sys₁, counts₁, sys₂, counts₂, hrun₁, hrun₂, hevents, hcount, hrounds, hreturn,
    fun t ht => hthread 2 ⟨6⟩ t hreturn ht, hlistings⟩

/-! ### A round that is over -/

/-- A client fills a round, fills one again and submits a unit; no unit does anything. -/
def idling : Docket where
  config := { primaries := 2 }
  eligible _ := true
  locks := 0
  errands := [{ fills := true, routine := [] }, { fills := true, routine := [] }, { routine := [] }]

/-- The moves of the client while the threads of the first round did not do anything yet. -/
def fillEarly : List Move :=
  [.call (.client 0) (.fill (.scripted 1)), .advance, .advance, .enter (.client 0), .advance,
    .call (.client 0) (.submit (.scripted 2)), .advance, .advance]

/-- The moves by which both threads retire, and the client fills the next round. -/
def fillLate : List Move :=
  [.call (.unit ⟨0⟩) .retire, .advance, .advance, .advance, .advance, .advance, .advance,
    .call (.unit ⟨1⟩) .retire, .advance, .advance, .advance, .advance,
    .call (.client 0) (.fill (.scripted 1)), .advance, .advance, .enter (.client 0), .advance,
    .enter (.client 0), .advance, .advance,
    .call (.client 0) (.submit (.scripted 2)), .advance, .advance]

/-- It is not so in every two runs: filling a round adds nobody as long as the threads of an earlier
one are there, and a unit without work once they retired. -/
theorem fill_round_not_deterministic :
    ¬ ∀ (d : Docket) (sys₁ sys₂ : System) (counts₁ counts₂ : List Count),
      (∀ t, d.eligible t = true) → d.Counted sys₁ counts₁ → d.Counted sys₂ counts₂ →
      ∀ i t₁ t₂, ⟨.client 0, d.operation i, .thread t₁⟩ ∈ sys₁.returns →
        ⟨.client 0, d.operation i, .thread t₂⟩ ∈ sys₂.returns → t₁ = t₂ := by
  intro h
  obtain ⟨⟨sys₁, counts₁⟩, hrun₁, ⟨sys₂, counts₂⟩, hrun₂, hreturn₁, hreturn₂⟩ :
      ∃ r₁ ∈ idling.run? (fillFirst ++ fillEarly), ∃ r₂ ∈ idling.run? (fillFirst ++ fillLate),
        ⟨.client 0, idling.operation 2, .thread ⟨3⟩⟩ ∈ r₁.1.returns ∧
        ⟨.client 0, idling.operation 2, .thread ⟨4⟩⟩ ∈ r₂.1.returns := by
    decide +kernel
  have hsame := h idling sys₁ sys₂ counts₁ counts₂ (fun _ => rfl)
    (Docket.counted_of_run? hrun₁) (Docket.counted_of_run? hrun₂) 2 ⟨3⟩ ⟨4⟩ hreturn₁ hreturn₂
  cases hsame

end RoundScheduler
