import RoundScheduler.Proofs.FillRound.Mimicry

/-!
# What a client counts

How many primaries a round lacks depends on the length of the thread list only. Two runs of a docket
that counted the same so far are mimicked by two runs of one agenda, so if they are in the same
round they count the same again. By induction on the errands two runs that always count in the same
rounds always count the same, and list the same threads for the same work.
-/

namespace RoundScheduler

open State

/-! ### What is missing -/

namespace State.Sound

variable {s : State} {t : ThreadId}

/-- Whoever is listed and no primary may become one. -/
lemma isCandidate_eq (h : s.Sound) (ht : t ∈ s.threadList) :
    s.isCandidate t = !decide (t ∈ s.primaries) := by
  obtain ⟨r, hr, -⟩ := h.roster.exists_record ht
  have hprimary := h.seating.primary_of_mem hr
  have hretired : r.terminated = true → r.primary = true := fun hflag =>
    (h.seating.truthful t r hr).primary (.inr (.inr (.inl hflag)))
  rw [isCandidate, hr, Option.any_some]
  by_cases hp : t ∈ s.primaries
  · simp [hp, hprimary.mpr hp]
  · have hnot : r.primary = false := Bool.eq_false_iff.mpr (mt hprimary.mp hp)
    have hactive : r.terminated = false :=
      Bool.eq_false_iff.mpr fun hflag => by simp [hretired hflag] at hnot
    simp [hp, hnot, hactive]

/-- All primaries are listed. -/
lemma countP_primaries (h : s.Sound) :
    s.threadList.countP (· ∈ s.primaries) = s.primaries.length := by
  rw [List.countP_eq_length_filter]
  refine ((List.perm_ext_iff_of_nodup (h.roster.list_nodup.filter _) h.seating.nodup).mpr
    fun t => ?_).length_eq
  rw [List.mem_filter, decide_eq_true_eq, and_iff_right_iff_imp]
  intro ht
  obtain ⟨r, hr, hprimary⟩ := (h.seating.mem_iff t).mp ht
  exact h.roster.mem_list hr (h.seating.started t r hr hprimary)

/-- A round lacks as many primaries as the list is too short. -/
lemma missingPrimaries_eq (h : s.Sound) :
    s.missingPrimaries = s.live.primaries - s.threadList.length := by
  rw [missingPrimaries, List.countP_congr fun t ht => by rw [h.isCandidate_eq ht],
    ← h.countP_primaries, List.length_eq_countP_add_countP (· ∈ s.primaries)]
  simp

end State.Sound

/-- For every errand for which the client counted in both runs, it did so in the same round. -/
def SameRounds (counts₁ counts₂ : List Count) : Prop :=
  ∀ c₁ ∈ counts₁, ∀ c₂ ∈ counts₂, c₁.errand = c₂.errand → c₁.round = c₂.round

/-- It does not matter which of two counts is first. -/
lemma SameRounds.symm {counts₁ counts₂ : List Count} (h : SameRounds counts₁ counts₂) :
    SameRounds counts₂ counts₁ :=
  fun c₂ hc₂ c₁ hc₁ herrand => (h c₁ hc₁ c₂ hc₂ herrand.symm).symm

namespace Docket

variable {d : Docket} {sys sys' : System} {counts : List Count} {c : Count} {i : Nat}

/-- What is missing for an errand was counted. -/
lemma exists_of_missingFor? {n : Nat} (h : missingFor? counts i = some n) :
    ∃ c ∈ counts, c.errand = i ∧ c.missing = n := by
  obtain ⟨c, hc, rfl⟩ := Option.map_eq_some_iff.mp h
  exact ⟨c, List.mem_of_find?_eq_some hc, by simpa using List.find?_some hc, rfl⟩

/-- What is known of a client that is about to count. -/
lemma Serves.of_count? (h : Serves d counts sys) (hc : sys.count? = some c) :
    Agenda.submissions sys.returns = c.errand ∧ c.round = sys.state.round ∧
      c.missing = sys.state.missingPrimaries ∧
      sys.promised = d.roll counts c.errand ++ [.scripted c.errand] ∧
      sys.state.listings.length = sys.promised.length := by
  unfold System.count? at hc
  split at hc
  · next i first hinside hcall =>
    cases hc
    obtain ⟨ws, hws, hserving⟩ := h.serving
    obtain ⟨j, hj⟩ : ∃ j, Agenda.submissions sys.returns = j := ⟨_, rfl⟩
    obtain ⟨next, hnext⟩ : ∃ next, sys.state.nextThread.raw = next := ⟨_, rfl⟩
    rw [hj, hcall, hnext] at hserving
    generalize hcall? : (some ⟨.fill (.scripted i), .submission (.count first)⟩ : Option Call) =
      call? at hserving
    cases hserving with
    | count hfills =>
      rw [operation_of_fills hfills] at hcall?
      cases hcall?
      have hpromised : sys.promised = d.roll counts i ++ [.scripted i] := by
        rw [System.promised, hws, map_snd_enlist, Submitters.submission?_of_call hcall]
        simp [Submission.work?]
      exact ⟨hj, rfl, rfl, hpromised, by simp [hpromised, hws, enlist]⟩
    | outside | enrol | wait | list => simp at hcall?
  · cases hc

/-! ### Runs -/

namespace Counted

/-- A system with counts is reachable. -/
lemma reachable (h : d.Counted sys counts) : System.Reachable d.config sys := by
  induction h with
  | start h => exact System.reachable_of_run? h
  | step h hstep ih =>
    obtain ⟨m, -, hm⟩ := hstep
    exact ih.step ⟨d.eligible, m, hm⟩

/-- A system with counts serves the docket. -/
lemma serves (h : d.Counted sys counts) (hnames : d.config.namesWorkers = true) :
    Serves d counts sys := by
  induction h with
  | @start sys h =>
    have hstart : Agenda.Untouched sys := Agenda.untouched_of_start (w := d.agenda []) h
    refine ⟨⟨[], by simp [State.listings, hstart.journal, enlist], ?_⟩, ?_, ?_,
      fun n => hstart.calls _, fun t call hcall => ?_, ?_⟩
    · rw [hstart.returns, hstart.nextThread, hstart.calls]
      exact .outside
    · simp [hstart.returns, Agenda.submissions]
    · simp [hstart.returns]
    · cases (hstart.calls _).symm.trans hcall
    · simp [hstart.returns]
  | step h hstep ih => exact ih.step hnames h.reachable hstep

/-- Every run is mimicked by one that follows an agenda. -/
lemma exists_mimics (h : d.Counted sys counts) (hnames : d.config.namesWorkers = true)
    {ws : List Work} (hpromised : sys.promised <+: ws) :
    ∃ mime, (d.agenda ws).Reaches mime ∧ Mimics d ws sys mime := by
  induction h with
  | @start sys h =>
    have hstart : Agenda.Untouched sys := Agenda.untouched_of_start (w := d.agenda ws) h
    refine ⟨sys, ⟨sys, h, .refl⟩, rfl, ?_, fun _ => rfl, ?_, ?_, fun t => ?_, ?_⟩
    · have hjournal : sys.state.journal.map Entry.asUnit = sys.state.journal := by
        rw [hstart.journal]
        rfl
      rw [State.asUnits, hjournal]
    · simp [hstart.calls]
    · simp [hstart.inside]
    · simp [hstart.returns, Docket.todo, State.listings, hstart.journal, Agenda.todo,
        Routine.afterReturns]
    · simp [hstart.returns, Agenda.submissions, State.listings, hstart.journal]
  | step h hstep ih =>
    have hinv := Invariant.of_reachable h.reachable
    have hnames' := h.reachable.config_eq.symm ▸ hnames
    have hserves := h.serves hnames
    have hbefore := ((hserves.going hinv hstep).promised hinv hnames').trans hpromised
    obtain ⟨mime, ⟨start, hstart, hpath⟩, hmimics⟩ := ih hbefore
    obtain ⟨mime', hsteps, hmimics'⟩ := hmimics.step hserves hinv hnames' hbefore hstep
    exact ⟨mime', ⟨start, hstart, hpath.trans hsteps⟩, hmimics'⟩

/-- Whatever the client counted it found in an earlier system of the run. -/
lemma exists_of_mem (h : d.Counted sys counts) (hc : c ∈ counts) :
    ∃ sys' counts', d.Counted sys' counts' ∧ sys'.count? = some c ∧ counts' ⊆ counts := by
  induction h with
  | start h => cases hc
  | @step sys sys' counts h hstep ih =>
    rcases List.mem_append.mp hc with hc | hc
    · exact ⟨sys, counts, h, Option.mem_toList.mp hc, List.subset_append_right _ _⟩
    · obtain ⟨first, counts', hfirst, hcount, hsub⟩ := ih hc
      exact ⟨first, counts', hfirst, hcount,
        List.Subset.trans hsub (List.subset_append_right _ _)⟩

variable {sys₁ sys₂ : System} {counts₁ counts₂ : List Count} {c₁ c₂ : Count}

/-- If two runs counted the same for all earlier errands, they count the same in the same round. -/
lemma missing_eq_of_roll_eq (h₁ : d.Counted sys₁ counts₁) (h₂ : d.Counted sys₂ counts₂)
    (hnames : d.config.namesWorkers = true) (hc₁ : sys₁.count? = some c₁)
    (hc₂ : sys₂.count? = some c₂) (herrand : c₁.errand = c₂.errand) (hround : c₁.round = c₂.round)
    (hroll : d.roll counts₁ c₁.errand = d.roll counts₂ c₁.errand) : c₁.missing = c₂.missing := by
  obtain ⟨-, hround₁, hmissing₁, hpromised₁, hlength₁⟩ := (h₁.serves hnames).of_count? hc₁
  obtain ⟨-, hround₂, hmissing₂, hpromised₂, hlength₂⟩ := (h₂.serves hnames).of_count? hc₂
  have hpromised : sys₁.promised = sys₂.promised := by
    rw [hpromised₁, hpromised₂, hroll, herrand]
  -- Both runs are mimicked by runs of the agenda with the units that were submitted in them.
  obtain ⟨mime₁, hreaches₁, hmimics₁⟩ := h₁.exists_mimics hnames List.prefix_rfl
  obtain ⟨mime₂, hreaches₂, hmimics₂⟩ := h₂.exists_mimics hnames List.prefix_rfl
  rw [← hpromised] at hreaches₂ hmimics₂
  obtain ⟨hprimaries, hlist⟩ := hreaches₁.agree_in_round hreaches₂
    (by rw [hmimics₁.state, hmimics₂.state]; exact hround₁.symm.trans (hround.trans hround₂))
    (by rw [hmimics₁.submissions, hmimics₂.submissions, hlength₁, hlength₂, hpromised])
  rw [hmimics₁.state, hmimics₂.state] at hprimaries hlist
  rw [hmissing₁, hmissing₂,
    (Invariant.of_reachable h₁.reachable).sound.missingPrimaries_eq,
    (Invariant.of_reachable h₂.reachable).sound.missingPrimaries_eq]
  exact congrArg₂ (· - ·) hprimaries hlist

/-- Two runs that counted the same have the same roll, as far as both know it. -/
lemma roll_eq_of_missing_eq (h₁ : d.Counted sys₁ counts₁) (h₂ : d.Counted sys₂ counts₂)
    (hnames : d.config.namesWorkers = true) (hi₁ : i ≤ Agenda.submissions sys₁.returns)
    (hi₂ : i ≤ Agenda.submissions sys₂.returns)
    (hmissing : ∀ c₁ ∈ counts₁, ∀ c₂ ∈ counts₂, c₁.errand = c₂.errand → c₁.errand < i →
      c₁.missing = c₂.missing) : d.roll counts₁ i = d.roll counts₂ i := by
  refine roll_congr fun j hj hfills => ?_
  obtain ⟨n₁, hn₁⟩ := Option.isSome_iff_exists.mp
    ((h₁.serves hnames).known j (Nat.lt_of_lt_of_le hj hi₁) hfills)
  obtain ⟨n₂, hn₂⟩ := Option.isSome_iff_exists.mp
    ((h₂.serves hnames).known j (Nat.lt_of_lt_of_le hj hi₂) hfills)
  obtain ⟨c₁, hc₁, rfl, rfl⟩ := exists_of_missingFor? hn₁
  obtain ⟨c₂, hc₂, herrand, rfl⟩ := exists_of_missingFor? hn₂
  rw [hn₁, hn₂, hmissing c₁ hc₁ c₂ hc₂ herrand.symm hj]

/-- Two runs that count in the same rounds count the same. -/
theorem missing_eq (h₁ : d.Counted sys₁ counts₁) (h₂ : d.Counted sys₂ counts₂)
    (hnames : d.config.namesWorkers = true) (hrounds : SameRounds counts₁ counts₂)
    (hc₁ : c₁ ∈ counts₁) (hc₂ : c₂ ∈ counts₂) (herrand : c₁.errand = c₂.errand) :
    c₁.missing = c₂.missing := by
  -- For earlier errands they do, so they have the same roll when they count.
  induction hn : c₁.errand using Nat.strongRecOn generalizing c₁ c₂ with
  | ind n ih =>
    obtain ⟨first₁, before₁, hfirst₁, hcount₁, hsub₁⟩ := h₁.exists_of_mem hc₁
    obtain ⟨first₂, before₂, hfirst₂, hcount₂, hsub₂⟩ := h₂.exists_of_mem hc₂
    have hat₁ := ((hfirst₁.serves hnames).of_count? hcount₁).1
    have hat₂ := ((hfirst₂.serves hnames).of_count? hcount₂).1
    refine hfirst₁.missing_eq_of_roll_eq hfirst₂ hnames hcount₁ hcount₂ herrand
      (hrounds c₁ hc₁ c₂ hc₂ herrand) (hfirst₁.roll_eq_of_missing_eq hfirst₂ hnames
        (Nat.le_of_eq hat₁.symm) (Nat.le_of_eq (herrand.trans hat₂.symm))
        fun a ha b hb hab hlt => ?_)
    exact ih a.errand (hn ▸ hlt) (hsub₁ ha) (hsub₂ hb) hab rfl

/-- They have the same roll, as far as both know it. -/
theorem roll_eq (h₁ : d.Counted sys₁ counts₁) (h₂ : d.Counted sys₂ counts₂)
    (hnames : d.config.namesWorkers = true) (hrounds : SameRounds counts₁ counts₂)
    (hi₁ : i ≤ Agenda.submissions sys₁.returns) (hi₂ : i ≤ Agenda.submissions sys₂.returns) :
    d.roll counts₁ i = d.roll counts₂ i :=
  h₁.roll_eq_of_missing_eq h₂ hnames hi₁ hi₂ fun _ hc₁ _ hc₂ herrand _ =>
    h₁.missing_eq h₂ hnames hrounds hc₁ hc₂ herrand

end Counted

/-! ### What is listed -/

/-- More errands have more units, behind the others. -/
lemma roll_mono {j : Nat} (h : i ≤ j) : d.roll counts i <+: d.roll counts j := by
  induction h with
  | refl => exact List.prefix_rfl
  | step _ ih =>
    rw [Nat.succ_eq_add_one, roll_succ]
    exact ih.trans (List.prefix_append _ _)

/-- Fewer copies begin more copies. -/
lemma replicate_mono {m n : Nat} (h : m ≤ n) (w : Work) :
    List.replicate m w <+: List.replicate n w :=
  ⟨List.replicate (n - m) w, by rw [List.replicate_append_replicate, Nat.add_sub_cancel' h]⟩

/-- Who is owed besides the unit of an errand fills the round. -/
lemma roll_append_mono {m : Nat} (h : m ≤ d.extra counts i) :
    d.roll counts i ++ .scripted i :: List.replicate m .filler <+: d.roll counts (i + 1) := by
  rw [roll_succ]
  exact (List.prefix_append_right_inj _).mpr
    (List.cons_prefix_cons.mpr ⟨rfl, replicate_mono h _⟩)

/-- What was listed ends within the current errand. -/
lemma Serves.exists_enlist (h : Serves d counts sys) : ∃ ws, sys.state.listings = enlist ws ∧
    ws <+: d.roll counts (Agenda.submissions sys.returns + 1) := by
  obtain ⟨ws, hws, hserving⟩ := h.serving
  refine ⟨ws, hws, ?_⟩
  generalize Agenda.submissions sys.returns = i at hserving ⊢
  generalize sys.state.nextThread.raw = next, sys.calls.get? (.client 0) = call? at hserving
  have howed : ∀ {ws w k}, Owes d counts i ws w k → ws <+: d.roll counts (i + 1) := fun howes => by
    cases howes with
    | only | first => exact roll_mono (Nat.le_succ _)
    | filler m left hfills hcounted =>
      refine roll_append_mono ?_
      rw [extra, if_pos hfills, hcounted, Option.getD_some]
      omega
  cases hserving with
  | outside => exact roll_mono (Nat.le_succ _)
  | enrol _ _ _ howes | wait _ _ _ howes | list _ _ _ howes => exact howed howes
  | count => exact roll_append_mono (m := 0) (Nat.zero_le _)

namespace Counted

variable {sys₁ sys₂ : System} {counts₁ counts₂ : List Count}

/-- No errand adds more units in a run that counted for it than in another one. -/
lemma extra_le (h₁ : d.Counted sys₁ counts₁) (h₂ : d.Counted sys₂ counts₂)
    (hnames : d.config.namesWorkers = true) (hrounds : SameRounds counts₁ counts₂)
    (hknown : d.fills i = true → (missingFor? counts₂ i).isSome) :
    d.extra counts₁ i ≤ d.extra counts₂ i := by
  unfold extra
  split
  · next hfills =>
    obtain ⟨n₂, hn₂⟩ := Option.isSome_iff_exists.mp (hknown hfills)
    cases hn₁ : missingFor? counts₁ i with
    | none => exact Nat.zero_le _
    | some n₁ =>
      obtain ⟨c₁, hc₁, herrand₁, rfl⟩ := exists_of_missingFor? hn₁
      obtain ⟨c₂, hc₂, herrand₂, rfl⟩ := exists_of_missingFor? hn₂
      have hsame := h₁.missing_eq h₂ hnames hrounds hc₁ hc₂ (herrand₁.trans herrand₂.symm)
      exact Nat.le_of_eq (by rw [hn₂, hsame])
  · exact Nat.le_refl 0

/-- If an errand adds no more units in one of the runs, its roll goes no further after it. -/
lemma roll_succ_mono (h₁ : d.Counted sys₁ counts₁) (h₂ : d.Counted sys₂ counts₂)
    (hnames : d.config.namesWorkers = true) (hrounds : SameRounds counts₁ counts₂)
    (hi₁ : i ≤ Agenda.submissions sys₁.returns) (hi₂ : i ≤ Agenda.submissions sys₂.returns)
    (hextra : d.extra counts₁ i ≤ d.extra counts₂ i) :
    d.roll counts₁ (i + 1) <+: d.roll counts₂ (i + 1) := by
  rw [roll_succ, h₁.roll_eq h₂ hnames hrounds hi₁ hi₂]
  exact roll_append_mono hextra

/-- The threads of two runs that count in the same rounds are listed for the same work, as far as
both listed them. -/
theorem listings_comparable (h₁ : d.Counted sys₁ counts₁) (h₂ : d.Counted sys₂ counts₂)
    (hnames : d.config.namesWorkers = true) (hrounds : SameRounds counts₁ counts₂)
    (hle : Agenda.submissions sys₁.returns ≤ Agenda.submissions sys₂.returns) :
    sys₁.state.listings <+: sys₂.state.listings ∨ sys₂.state.listings <+: sys₁.state.listings := by
  obtain ⟨ws₁, hws₁, hroll₁⟩ := (h₁.serves hnames).exists_enlist
  obtain ⟨ws₂, hws₂, hroll₂⟩ := (h₂.serves hnames).exists_enlist
  have hcomparable : ∀ {ws}, ws₁ <+: ws → ws₂ <+: ws →
      enlist ws₁ <+: enlist ws₂ ∨ enlist ws₂ <+: enlist ws₁ := fun hw₁ hw₂ => by
    have hor := List.prefix_or_prefix_of_prefix hw₁ hw₂
    exact hor.imp enlist_mono enlist_mono
  rw [hws₁, hws₂]
  rcases Nat.lt_or_eq_of_le hle with hlt | heq
  · have hextra := h₁.extra_le h₂ hnames hrounds ((h₂.serves hnames).known _ hlt)
    exact hcomparable (hroll₁.trans ((h₁.roll_succ_mono h₂ hnames hrounds (Nat.le_refl _) hle
      hextra).trans (roll_mono (Nat.le_succ_of_le hlt)))) hroll₂
  · rcases Nat.le_total (d.extra counts₁ (Agenda.submissions sys₁.returns))
      (d.extra counts₂ (Agenda.submissions sys₁.returns)) with hextra | hextra
    · exact hcomparable (hroll₁.trans (heq ▸ h₁.roll_succ_mono h₂ hnames hrounds (Nat.le_refl _)
        hle hextra)) hroll₂
    · exact hcomparable hroll₁ (hroll₂.trans (heq ▸ h₂.roll_succ_mono h₁ hnames hrounds.symm
        hle (Nat.le_refl _) hextra))

end Counted

end Docket

end RoundScheduler
