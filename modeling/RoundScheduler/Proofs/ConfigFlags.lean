import Mathlib.Data.List.Nodup
import Mathlib.Data.List.Perm.Subperm
import RoundScheduler.Config.Flags
import RoundScheduler.Proofs.Numeral
import RoundScheduler.Proofs.CommandLine.Spelling

/-!
# Configurations on the command line

Every configuration can be written as flags: one for each field, in any order, with the values in
the same argument or in the next one, and a flag can be left out if its field is standard. All
these command lines are read as the configuration, and none of them can use one of its flags once
more.

The order does not matter because the settings of a configuration have different names, so a name
says which setting a use of a flag is. What a field is read as is then one question for all words,
whether its flag was used or not.
-/

namespace RoundScheduler

open CommandLine

/-- What is written of a word reads back. -/
lemma readWord?_toString {n : Nat} (hn : Word.Fits n) : readWord? (toString n) = some n := by
  have hdigits : (toString n).toList = Nat.toDigits 10 n := Nat.toList_repr
  rw [readWord?, hdigits, Numeral.read_toDigits (Word.fits_iff.mp hn)]
  rfl

namespace Config

variable {c : Config} {ws : List Spelling}

/-! ### The flags -/

/-- What a command line of a configuration may hold. -/
def grammar : Grammar := { flags := flags }

/-- No two flags have the same name. -/
lemma nodup_flags : (flags.map (·.name)).Nodup := by decide

/-- The names of the flags have no equals sign. -/
lemma hasPlainNames_grammar : grammar.HasPlainNames := by
  intro f hf
  simp only [grammar, flags, List.mem_cons, List.not_mem_nil, or_false] at hf
  rcases hf with rfl | rfl | rfl | rfl | rfl | rfl <;> exact ⟨by decide, by decide⟩

/-- No flag may be given twice. -/
lemma not_isRepeatable_of_mem : ∀ f ∈ flags, f.isRepeatable = false := by
  intro f hf
  simp only [flags, List.mem_cons, List.not_mem_nil, or_false] at hf
  rcases hf with rfl | rfl | rfl | rfl | rfl | rfl <;> rfl

/-- A flag is found by its name. -/
lemma takes_of_mem {f : Flag} {u : Use} (hf : f ∈ flags) (hsuits : f.Takes u) :
    grammar.Takes u := by
  refine ⟨f, ?_, hsuits⟩
  rw [hsuits.name_eq]
  cases hfound : grammar.flag? f.name with
  | none => exact absurd (List.find?_eq_none.mp hfound f hf) (by simp)
  | some f' =>
    have hname : f'.name = f.name := by simpa using List.find?_some hfound
    exact congrArg some
      (List.inj_on_of_nodup_map nodup_flags (List.mem_of_find?_eq_some hfound) hf hname)

/-- Flags with values of the right form are accepted as long as none is used twice. -/
lemma ofArguments_eq_ite (htakes : ∀ w ∈ ws, ∃ f ∈ flags, f.Takes w.use)
    (hplain : ∀ w ∈ ws, w.IsPlain) : ofArguments (ws.flatMap Spelling.arguments) =
      if (ws.map (·.use.name)).Nodup then .ok (ofReading { uses := ws.map Spelling.use })
      else .error .unexpectedMultipleUsage := by
  have htaken : ∀ w ∈ ws, grammar.Takes w.use := by
    intro w hw
    obtain ⟨f, hf, hsuits⟩ := htakes w hw
    exact takes_of_mem hf hsuits
  have hread := Grammar.read_spellings hasPlainNames_grammar htaken hplain
  have hcheck := Reading.check_eq_ite rfl not_isRepeatable_of_mem
    (List.forall_mem_map.mpr htaken)
  rw [List.map_map] at hcheck
  -- the arguments can all be read, so only the check decides
  change (grammar.read (ws.flatMap Spelling.arguments) >>= fun r =>
    r.check grammar >>= fun _ => pure (ofReading r)) = _
  rw [hread]
  change (Reading.check { uses := ws.map Spelling.use } grammar >>= fun _ =>
    pure (ofReading { uses := ws.map Spelling.use })) = _
  rw [hcheck]
  by_cases hnodup : (ws.map ((·.name) ∘ Spelling.use)).Nodup
  · rw [if_pos hnodup]
    exact (if_pos hnodup).symm
  · rw [if_neg hnodup]
    exact (if_neg hnodup).symm

/-! ### The settings of a configuration -/

/-- The uses of flags that set every field of a configuration. -/
def settings (c : Config) : List Use :=
  [⟨"primaries", some (toString c.primaries)⟩,
    ⟨"steps-per-primary", some (toString c.stepsPerPrimary)⟩,
    ⟨"admission-factor", some (toString c.admissionFactor)⟩,
    ⟨"admission-slack", some (toString c.admissionSlack)⟩] ++
  (if c.recordSchedule then [⟨"record-schedule", none⟩] else []) ++
  [⟨"thread-name-prefix", some c.threadNamePrefix⟩]

/-- A configuration is written with a flag for each number, the prefix, and a switch if it records.
-/
lemma mem_settings_iff {u : Use} : u ∈ c.settings ↔
    u = ⟨"primaries", some (toString c.primaries)⟩ ∨
    u = ⟨"steps-per-primary", some (toString c.stepsPerPrimary)⟩ ∨
    u = ⟨"admission-factor", some (toString c.admissionFactor)⟩ ∨
    u = ⟨"admission-slack", some (toString c.admissionSlack)⟩ ∨
    (c.recordSchedule = true ∧ u = ⟨"record-schedule", none⟩) ∨
    u = ⟨"thread-name-prefix", some c.threadNamePrefix⟩ := by
  cases hrecord : c.recordSchedule <;> simp [settings, hrecord]

/-- The numbers that are used by default are words. -/
lemma fits_standard : standard.Fits := ⟨by decide, by decide, by decide, by decide⟩

/-- The settings stand in the order of the flags. -/
lemma settings_sublist_flags : (c.settings.map (·.name)).Sublist (flags.map (·.name)) := by
  cases hrecord : c.recordSchedule with
  | false =>
    have hnames : c.settings.map (·.name) = ["primaries", "steps-per-primary", "admission-factor",
        "admission-slack", "thread-name-prefix"] := by simp [settings, hrecord]
    rw [hnames]
    decide
  | true =>
    have hnames : c.settings.map (·.name) = flags.map (·.name) := by
      simp [settings, hrecord, flags, wordFlag]
    rw [hnames]

/-- No flag is written twice. -/
lemma nodup_settings : (c.settings.map (·.name)).Nodup := nodup_flags.sublist settings_sublist_flags

/-- A setting is known by its name. -/
lemma eq_of_name_eq {u v : Use} (hu : u ∈ c.settings) (hv : v ∈ c.settings)
    (hname : u.name = v.name) : u = v :=
  List.inj_on_of_nodup_map nodup_settings hu hv hname

/-- The flag of a word takes what the word is written as. -/
lemma takes_toString (name : String) {n : Nat} (hn : Word.Fits n) :
    (wordFlag name).Takes ⟨name, some (toString n)⟩ := by
  refine .valued _ rfl ?_
  change (readWord? (toString n)).isSome = true
  rw [readWord?_toString hn]
  rfl

/-- Every setting suits a flag. -/
lemma takes_of_mem_settings (hc : c.Fits) :
    ∀ u ∈ c.settings, ∃ f ∈ flags, f.Takes u := by
  intro u hu
  rcases mem_settings_iff.mp hu with rfl | rfl | rfl | rfl | ⟨_, rfl⟩ | rfl
  · exact ⟨_, by simp [flags], takes_toString "primaries" hc.primaries⟩
  · exact ⟨_, by simp [flags], takes_toString "steps-per-primary" hc.stepsPerPrimary⟩
  · exact ⟨_, by simp [flags], takes_toString "admission-factor" hc.admissionFactor⟩
  · exact ⟨_, by simp [flags], takes_toString "admission-slack" hc.admissionSlack⟩
  · exact ⟨{ name := "record-schedule", takesValue := false }, by simp [flags], .bare rfl⟩
  · exact ⟨{ name := "thread-name-prefix" }, by simp [flags], .valued _ rfl rfl⟩

/-! ### Command lines of a configuration -/

/-- A command line that describes a configuration: some of its settings, in any order and in any
form, only standard ones being left out. -/
structure WrittenBy (c : Config) (ws : List Spelling) : Prop where
  /-- The flags are settings of the configuration, each used once at most. -/
  given : (ws.map Spelling.use).Subperm c.settings
  /-- A setting that is left out is the one of an empty command line. -/
  left : ∀ u ∈ c.settings, u ∉ ws.map Spelling.use → u ∈ standard.settings
  /-- The values that are arguments of their own cannot be taken for flags. -/
  plain : ∀ w ∈ ws, w.IsPlain

/-- Every configuration can be written, all values standing behind equals signs. -/
lemma exists_writtenBy (c : Config) : ∃ ws, c.WrittenBy ws := by
  have hws : (c.settings.map Spelling.ofUse).map Spelling.use = c.settings := by
    rw [List.map_map]
    exact List.map_id'' Spelling.use_ofUse c.settings
  refine ⟨c.settings.map Spelling.ofUse, ?_, ?_, ?_⟩
  · rw [hws]
  · intro u hu hleft
    rw [hws] at hleft
    exact absurd hu hleft
  · exact List.forall_mem_map.mpr fun u _ => Spelling.isPlain_ofUse u

namespace WrittenBy

variable (h : c.WrittenBy ws)
include h

/-- A use of a flag is the setting of its name. -/
lemma eq_setting {u v : Use} (hu : u ∈ ws.map Spelling.use) (hv : v ∈ c.settings)
    (hname : u.name = v.name) : u = v :=
  eq_of_name_eq (h.given.subset hu) hv hname

/-- No flag is given twice. -/
lemma nodup_names : (ws.map (·.use.name)).Nodup := by
  obtain ⟨us, hperm, hsub⟩ := h.given
  have hnodup := (hperm.map (·.name)).nodup_iff.mp (nodup_settings.sublist (hsub.map (·.name)))
  rwa [List.map_map] at hnodup

/-- A value is read as given, or it is the one of an empty command line. -/
lemma value?_eq {name v : String} (hset : ⟨name, some v⟩ ∈ c.settings) :
    Reading.value? { uses := ws.map Spelling.use } name = some v ∨
      Reading.value? { uses := ws.map Spelling.use } name = none ∧
        ⟨name, some v⟩ ∈ standard.settings := by
  rw [Reading.value?_eq_ite fun u hu hname => h.eq_setting hu hset hname]
  by_cases hgiven : ⟨name, some v⟩ ∈ ws.map Spelling.use
  · exact .inl (if_pos hgiven)
  · exact .inr ⟨if_neg hgiven, h.left _ hset hgiven⟩

/-- A number is read where it was written, and the default where it was left out. -/
lemma wordOf_eq (name : String) (field : Config → Nat)
    (hset : ∀ d : Config, ⟨name, some (toString (field d))⟩ ∈ d.settings)
    (hfits : Word.Fits (field c)) (hstandard : Word.Fits (field standard)) :
    wordOf { uses := ws.map Spelling.use } name (field standard) = field c := by
  rcases h.value?_eq (hset c) with hvalue | ⟨hvalue, hleft⟩
  · rw [wordOf, hvalue, Option.bind_some, readWord?_toString hfits, Option.getD_some]
  · -- the words need not be compared, only their texts, which read back
    have hsame : toString (field c) = toString (field standard) := by
      simpa using eq_of_name_eq hleft (hset standard) rfl
    have hread := readWord?_toString hfits
    rw [hsame, readWord?_toString hstandard] at hread
    rw [wordOf, hvalue]
    exact Option.some.inj hread

/-- The prefix is read where it was written, and the default where it was left out. -/
lemma getD_prefix_eq : (Reading.value? { uses := ws.map Spelling.use } "thread-name-prefix").getD
    standard.threadNamePrefix = c.threadNamePrefix := by
  have hset : ⟨"thread-name-prefix", some c.threadNamePrefix⟩ ∈ c.settings := by
    simp [mem_settings_iff]
  rcases h.value?_eq hset with hvalue | ⟨hvalue, hleft⟩
  · rw [hvalue, Option.getD_some]
  · have hsame : c.threadNamePrefix = standard.threadNamePrefix := by
      simpa [mem_settings_iff] using hleft
    rw [hvalue, Option.getD_none, hsame]

/-- The flag without a value is used exactly if the schedule is recorded. -/
lemma has_record_eq : Reading.has { uses := ws.map Spelling.use } "record-schedule" =
    c.recordSchedule := by
  have honly : ∀ u ∈ ws.map Spelling.use, u.name = "record-schedule" →
      c.recordSchedule = true ∧ u = ⟨"record-schedule", none⟩ := by
    intro u hu hname
    rcases mem_settings_iff.mp (h.given.subset hu) with rfl | rfl | rfl | rfl | hrecord | rfl
    case inr.inr.inr.inr.inl => exact hrecord
    all_goals exact absurd hname (by simp)
  rw [Reading.has_eq_decide fun u hu hname => (honly u hu hname).2, Bool.eq_iff_iff,
    decide_eq_true_eq]
  constructor
  · intro hu
    exact (honly _ hu rfl).1
  · intro hrecord
    by_contra hleft
    have hstandard := h.left _ (mem_settings_iff.mpr (by simp [hrecord])) hleft
    exact absurd hstandard (by decide)

/-- What is read from a command line of a configuration is the configuration. -/
lemma ofReading_eq (hc : c.Fits) : ofReading { uses := ws.map Spelling.use } = c := by
  have hstandard := fits_standard
  have hprimaries := h.wordOf_eq "primaries" Config.primaries
    (fun d => by simp [mem_settings_iff]) hc.primaries hstandard.primaries
  have hsteps := h.wordOf_eq "steps-per-primary" Config.stepsPerPrimary
    (fun d => by simp [mem_settings_iff]) hc.stepsPerPrimary hstandard.stepsPerPrimary
  have hfactor := h.wordOf_eq "admission-factor" Config.admissionFactor
    (fun d => by simp [mem_settings_iff]) hc.admissionFactor hstandard.admissionFactor
  have hslack := h.wordOf_eq "admission-slack" Config.admissionSlack
    (fun d => by simp [mem_settings_iff]) hc.admissionSlack hstandard.admissionSlack
  rw [ofReading, hprimaries, hsteps, hfactor, hslack, h.has_record_eq, h.getD_prefix_eq]

end WrittenBy

/-! ### Reading a configuration from its command lines -/

/-- Every configuration can be written on a command line. Its flags may stand in any order, each
with its value in the same argument or in the next one, and those of standard fields may be left
out: what is read is the configuration. If any of the flags are used once more, wherever they stand
and with whatever values of the right form, the command line is refused for that. -/
theorem arguments_express_config (hc : c.Fits) :
    (∃ ws, c.WrittenBy ws) ∧ ∀ ws, c.WrittenBy ws →
      ofArguments (ws.flatMap Spelling.arguments) = .ok c ∧
      ∀ again all : List Spelling, again ≠ [] →
        (∀ w ∈ again, w.IsPlain ∧ (∃ f ∈ flags, f.Takes w.use) ∧
          ∃ v ∈ ws, v.use.name = w.use.name) →
        all.Perm (ws ++ again) →
        ofArguments (all.flatMap Spelling.arguments) = .error .unexpectedMultipleUsage := by
  refine ⟨c.exists_writtenBy, fun ws h => ?_⟩
  have htakes : ∀ w ∈ ws, ∃ f ∈ flags, f.Takes w.use := by
    intro w hw
    exact takes_of_mem_settings hc _ (h.given.subset (List.mem_map_of_mem hw))
  refine ⟨?_, fun again all hne hagain hall => ?_⟩
  · rw [ofArguments_eq_ite htakes h.plain, if_pos h.nodup_names, h.ofReading_eq hc]
  · have hmem : ∀ w ∈ all, w ∈ ws ∨ w ∈ again := by
      intro w hw
      exact List.mem_append.mp (hall.mem_iff.mp hw)
    have htaken : ∀ w ∈ all, ∃ f ∈ flags, f.Takes w.use := by
      intro w hw
      exact (hmem w hw).elim (htakes w) fun hw => (hagain w hw).2.1
    have hplain : ∀ w ∈ all, w.IsPlain := by
      intro w hw
      exact (hmem w hw).elim (h.plain w) fun hw => (hagain w hw).1
    have htwice : ¬ (all.map (·.use.name)).Nodup := by
      -- one flag that is used again is enough: its name stands in both parts
      intro hnodup
      obtain ⟨w, hw⟩ := List.exists_mem_of_ne_nil again hne
      obtain ⟨_, _, v, hv, hname⟩ := hagain w hw
      have hnames := (hall.map (·.use.name)).nodup_iff.mp hnodup
      rw [List.map_append, List.nodup_append] at hnames
      exact hnames.2.2 _ (List.mem_map_of_mem hv) _ (List.mem_map_of_mem hw) hname
    rw [ofArguments_eq_ite htaken hplain, if_neg htwice]

/-- A configuration with a prefix that looks like a flag. -/
def dashed : Config :=
  { primaries := 3, recordSchedule := true, threadNamePrefix := "--primaries=7" }

/-- A command line of the configuration with a prefix that looks like a flag. -/
def dashedLine : List Spelling :=
  [.joined "thread-name-prefix" "--primaries=7", .apart "admission-slack" "50",
    .bare "record-schedule", .apart "primaries" "3"]

/-- The prefix is read as it is, and the number of primaries cannot be given twice. -/
theorem arguments_express_config_dashed :
    dashed.Fits ∧ dashed.WrittenBy dashedLine ∧
      dashedLine.flatMap Spelling.arguments = ["--thread-name-prefix=--primaries=7",
        "--admission-slack", "50", "--record-schedule", "--primaries", "3"] ∧
      ofArguments (dashedLine.flatMap Spelling.arguments) = .ok dashed ∧
      ofArguments ((.joined "primaries" "+07" :: dashedLine).flatMap Spelling.arguments) =
        .error .unexpectedMultipleUsage := by
  have hfits : dashed.Fits := ⟨by decide, by decide, by decide, by decide⟩
  have hwritten : dashed.WrittenBy dashedLine := ⟨by decide, by decide, by decide⟩
  obtain ⟨hread, htwice⟩ := (arguments_express_config hfits).2 dashedLine hwritten
  refine ⟨hfits, hwritten, by decide, hread, ?_⟩
  refine htwice [.joined "primaries" "+07"] _ (by decide) ?_
    (List.perm_append_singleton _ dashedLine).symm
  intro w hw
  obtain rfl := List.mem_singleton.mp hw
  exact ⟨trivial, ⟨wordFlag "primaries", by simp [flags], .valued _ rfl (by decide)⟩,
    .apart "primaries" "3", by decide, rfl⟩

end Config

end RoundScheduler
