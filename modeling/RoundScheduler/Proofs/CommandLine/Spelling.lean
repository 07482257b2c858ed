import Mathlib.Tactic.Lemma
import RoundScheduler.CommandLine.Flag

/-!
# Ways to write a flag

A flag without a value is written alone; a value stands behind an equals sign or is the next
argument. Whatever is written in these ways is read as the uses of the flags in the order in which
they stand, whatever the values look like, as long as a value that is an argument of its own cannot
be taken for a flag. What was read passes the check exactly if no flag was used twice.
-/

namespace RoundScheduler.CommandLine

/-! ### Spellings -/

/-- A use of a flag as a command line writes it. -/
inductive Spelling where
  /-- A flag without a value, `--name`. -/
  | bare (name : String)
  /-- A flag and its value in one argument, `--name=value`. -/
  | joined (name value : String)
  /-- A flag and its value in two arguments, `--name value`. -/
  | apart (name value : String)
  deriving DecidableEq

namespace Spelling

/-- The use of a flag that is written. -/
def use : Spelling → Use
  | bare name => ⟨name, none⟩
  | joined name value | apart name value => ⟨name, some value⟩

/-- The arguments that are written. -/
def arguments : Spelling → List String
  | bare name => ["--" ++ name]
  | joined name value => ["--" ++ name ++ "=" ++ value]
  | apart name value => ["--" ++ name, value]

/-- A value that is an argument of its own is not empty and does not begin with a dash. -/
def IsPlain : Spelling → Prop
  | apart _ value => value ≠ "" ∧ value.toList.head? ≠ some '-'
  | _ => True

instance : DecidablePred IsPlain
  | bare _ | joined _ _ => inferInstanceAs (Decidable True)
  | apart _ _ => inferInstanceAs (Decidable (_ ∧ _))

/-- A use of a flag, written with its value in the same argument. -/
def ofUse : Use → Spelling
  | ⟨name, none⟩ => bare name
  | ⟨name, some value⟩ => joined name value

/-- The use that a use is written for is itself. -/
lemma use_ofUse (u : Use) : (ofUse u).use = u := by
  obtain ⟨name, _ | value⟩ := u <;> rfl

/-- A value in the same argument as its flag is read as a value, whatever it looks like. -/
lemma isPlain_ofUse (u : Use) : (ofUse u).IsPlain := by
  obtain ⟨name, _ | value⟩ := u <;> trivial

end Spelling

/-- A use that suits a flag: with a value of the right form, or without one if the flag takes
none. -/
inductive Flag.Takes (f : Flag) : Use → Prop
  | bare (hvalue : f.takesValue = false) : Takes f ⟨f.name, none⟩
  | valued (value : String) (hvalue : f.takesValue = true) (haccepts : f.accepts value = true) :
    Takes f ⟨f.name, some value⟩

/-- A use that a flag takes has the name of the flag. -/
lemma Flag.Takes.name_eq {f : Flag} {u : Use} (h : f.Takes u) : u.name = f.name := by
  cases h <;> rfl

/-! ### What an argument looks like -/

section

variable {cs : List Char}

/-- Without an equals sign there is no value. -/
lemma splitValue_of_not_mem (hcs : '=' ∉ cs) : splitValue cs = (String.ofList cs, none) := by
  have hkept : ∀ c ∈ cs, decide (c ≠ '=') = true := by
    intro c hc
    exact decide_eq_true fun heq => hcs (heq ▸ hc)
  have hdrop : cs.dropWhile (· ≠ '=') = [] := by
    rw [← List.append_nil cs, List.dropWhile_append_of_pos hkept, List.dropWhile_nil]
  rw [splitValue, hdrop]

/-- The value stands behind the first equals sign. -/
lemma splitValue_append (hcs : '=' ∉ cs) (value : List Char) :
    splitValue (cs ++ '=' :: value) = (String.ofList cs, some (String.ofList value)) := by
  have hkept : ∀ c ∈ cs, decide (c ≠ '=') = true := by
    intro c hc
    exact decide_eq_true fun heq => hcs (heq ▸ hc)
  have hdrop : (cs ++ '=' :: value).dropWhile (· ≠ '=') = '=' :: value :=
    List.dropWhile_append_of_pos hkept
  have htake : (cs ++ '=' :: value).takeWhile (· ≠ '=') = cs := by
    rw [List.takeWhile_append_of_pos hkept]
    exact List.append_nil cs
  rw [splitValue, hdrop, htake]

end

namespace Argument

variable {s name : String}

/-- What stands behind two dashes is a name, perhaps with a value. -/
lemma ofText_dashes {cs : List Char} (hs : s.toList = '-' :: '-' :: cs) (hcs : cs ≠ []) :
    ofText s = .long (splitValue cs).1 (splitValue cs).2 := by
  unfold ofText
  rw [hs]
  cases cs with
  | nil => exact absurd rfl hcs
  | cons c cs => rfl

/-- Two dashes and a name are a long flag without a value. -/
lemma ofText_name (hne : name ≠ "") (hname : '=' ∉ name.toList) :
    ofText ("--" ++ name) = .long name none := by
  have htext : ("--" ++ name).toList = '-' :: '-' :: name.toList := by simp
  have hcs : name.toList ≠ [] := by simpa using hne
  rw [ofText_dashes htext hcs, splitValue_of_not_mem hname, String.ofList_toList]

/-- Two dashes, a name, an equals sign and a text are a long flag with that value. -/
lemma ofText_joined (hname : '=' ∉ name.toList) (value : String) :
    ofText ("--" ++ name ++ "=" ++ value) = .long name (some value) := by
  have htext : ("--" ++ name ++ "=" ++ value).toList =
      '-' :: '-' :: (name.toList ++ '=' :: value.toList) := by simp
  rw [ofText_dashes htext (by simp), splitValue_append hname, String.ofList_toList,
    String.ofList_toList]

/-- What begins with another character than a dash is an ordinary argument. -/
lemma ofText_plain {c : Char} {cs : List Char} (hs : s.toList = c :: cs) (hc : c ≠ '-') :
    ofText s = .plain s := by
  unfold ofText
  rw [hs]
  split <;> simp_all

end Argument

/-! ### Reading what was written -/

namespace Grammar

variable {g : Grammar} {ws : List Spelling}

/-- The names of the flags can be told from the values behind them. -/
def HasPlainNames (g : Grammar) : Prop :=
  ∀ f ∈ g.flags, f.name ≠ "" ∧ '=' ∉ f.name.toList

/-- The grammar has a flag that a use suits. -/
def Takes (g : Grammar) (u : Use) : Prop := ∃ f, g.flag? u.name = some f ∧ f.Takes u

section

variable {name : String} {f : Flag}

/-- A flag without its value stays open if it takes one. -/
lemma readLong_name (hf : g.flag? name = some f) : g.readLong name none =
    if f.takesValue then .ok ([], some f) else .ok ([⟨name, none⟩], none) := by
  simp only [readLong, hf]

/-- A flag that takes no value is refused with one. -/
lemma readLong_value (hf : g.flag? name = some f) (value : String) : g.readLong name (some value) =
    if f.takesValue then .ok ([⟨name, some value⟩], none) else .error .tooManyValues := by
  simp only [readLong, hf]

/-- An argument with a name is read as the uses that it begins with. -/
lemma readFrom_long {arg : String} {value : Option String} {uses : List Use} {next? : Option Flag}
    (harg : Argument.ofText arg = .long name value)
    (hlong : g.readLong name value = .ok (uses, next?)) (rest : List String) :
    g.readFrom none (arg :: rest) = (g.readFrom next? rest).map (prepend uses) := by
  simp only [readFrom, harg, hlong]
  change (g.readFrom next? rest >>= fun r => pure (prepend uses r)) = _
  cases g.readFrom next? rest <;> rfl

/-- An ordinary argument is the value that a flag waits for. -/
lemma readFrom_plain {arg : String} (harg : Argument.ofText arg = .plain arg)
    (rest : List String) :
    g.readFrom (some f) (arg :: rest) =
      (g.readFrom none rest).map (prepend [⟨f.name, some arg⟩]) := by
  simp only [readFrom, harg]

end

/-- A spelling in front of other arguments is read as the use of its flag. -/
lemma readFrom_spelling (hnames : g.HasPlainNames) {w : Spelling} (htakes : g.Takes w.use)
    (hplain : w.IsPlain) (rest : List String) :
    g.readFrom none (w.arguments ++ rest) = (g.readFrom none rest).map (prepend [w.use]) := by
  obtain ⟨f, hf, hsuits⟩ := htakes
  obtain ⟨hne, hname⟩ := hnames f (List.mem_of_find?_eq_some hf)
  rw [← hsuits.name_eq] at hne hname
  cases w with
  | bare name =>
    have hlong := readLong_name hf
    cases hsuits with
    | bare hvalue =>
      rw [hvalue] at hlong
      exact readFrom_long (Argument.ofText_name hne hname) hlong rest
  | joined name value =>
    have hlong := readLong_value hf value
    cases hsuits with
    | valued _ hvalue =>
      rw [hvalue] at hlong
      exact readFrom_long (Argument.ofText_joined hname value) hlong rest
  | apart name value =>
    have hlong := readLong_name hf
    cases hsuits with
    | valued _ hvalue =>
      obtain ⟨hvalued, hhead⟩ := hplain
      rw [hvalue] at hlong
      have hread := readFrom_long (Argument.ofText_name hne hname) hlong (value :: rest)
      cases hcs : value.toList with
      | nil => exact absurd (by simpa using hcs) hvalued
      | cons c cs =>
        have hc : c ≠ '-' := by simpa [hcs] using hhead
        rw [readFrom_plain (Argument.ofText_plain hcs hc)] at hread
        refine hread.trans ?_
        cases g.readFrom none rest <;> rfl

/-- Spellings are read as the uses of their flags, in order. -/
theorem read_spellings (hnames : g.HasPlainNames) (htakes : ∀ w ∈ ws, g.Takes w.use)
    (hplain : ∀ w ∈ ws, w.IsPlain) :
    g.read (ws.flatMap Spelling.arguments) = .ok { uses := ws.map Spelling.use } := by
  rw [read]
  induction ws with
  | nil => rfl
  | cons w ws ih =>
    have hrest := ih (fun v hv => htakes v (.tail w hv)) fun v hv => hplain v (.tail w hv)
    rw [List.flatMap_cons, readFrom_spelling hnames (htakes w (.head ws)) (hplain w (.head ws)),
      hrest]
    rfl

end Grammar

/-! ### Checking what was read -/

/-- If every check can only fail in one way, so can all of them together. -/
lemma forM_eq_ite {α ε : Type} {P : α → Prop} [DecidablePred P] {e : ε} {check : α → Except ε Unit}
    {l : List α} (hcheck : ∀ a ∈ l, check a = if P a then .ok () else .error e) :
    l.forM check = if ∀ a ∈ l, P a then .ok () else .error e := by
  induction l with
  | nil => rfl
  | cons a l ih =>
    have hrest := ih fun b hb => hcheck b (.tail a hb)
    change (check a >>= fun _ => l.forM check) = _
    rw [hcheck a (.head l), hrest]
    simp only [List.forall_mem_cons]
    by_cases ha : P a
    · simp only [ha, if_true, true_and]
      rfl
    · simp only [ha, if_false, false_and]
      rfl

namespace Reading

variable {r : Reading} {name : String}

/-- The values read for a flag are those of its uses. -/
lemma mem_values_iff {v : String} : v ∈ r.values name ↔ ⟨name, some v⟩ ∈ r.uses := by
  simp only [values, List.mem_filterMap, List.mem_filter, decide_eq_true_eq]
  constructor
  · rintro ⟨⟨_, _⟩, ⟨hu, rfl⟩, rfl⟩
    exact hu
  · intro hu
    exact ⟨_, ⟨hu, rfl⟩, rfl⟩

/-- The value of a flag that is used in one way only. -/
lemma value?_eq_ite {v : String} (honly : ∀ u ∈ r.uses, u.name = name → u = ⟨name, some v⟩) :
    r.value? name = if ⟨name, some v⟩ ∈ r.uses then some v else none := by
  have hvalues : ∀ w ∈ r.values name, w = v := by
    intro w hw
    simpa using honly _ (mem_values_iff.mp hw) rfl
  rw [value?]
  by_cases hv : ⟨name, some v⟩ ∈ r.uses
  · obtain ⟨w, hw⟩ := Option.isSome_iff_exists.mp
      (List.isSome_head?.mpr (List.ne_nil_of_mem (mem_values_iff.mpr hv)))
    rw [if_pos hv, hw, hvalues w (List.mem_of_head? hw)]
  · have hnone : r.values name = [] := by
      refine List.eq_nil_iff_forall_not_mem.mpr fun w hw => hv ?_
      rw [← hvalues w hw]
      exact mem_values_iff.mp hw
    rw [if_neg hv, hnone, List.head?_nil]

/-- Whether a flag without values is used. -/
lemma has_eq_decide (honly : ∀ u ∈ r.uses, u.name = name → u = ⟨name, none⟩) :
    r.has name = decide (⟨name, none⟩ ∈ r.uses) := by
  rw [Bool.eq_iff_iff, has, List.any_eq_true, decide_eq_true_eq]
  constructor
  · rintro ⟨u, hu, hname⟩
    rw [← honly u hu (of_decide_eq_true hname)]
    exact hu
  · intro hu
    exact ⟨_, hu, decide_eq_true rfl⟩

/-- A flag whose uses all suit it can only be refused for being used twice. -/
lemma checkFlag_eq_ite {f : Flag} (honce : f.isRepeatable = false)
    (hsuits : ∀ u ∈ r.uses, u.name = f.name → f.Takes u) (hused : ∃ u ∈ r.uses, u.name = f.name) :
    r.checkFlag f = if (r.uses.map (·.name)).count f.name ≤ 1 then .ok ()
      else .error .unexpectedMultipleUsage := by
  have hvalued : (f.takesValue && (r.values f.name).isEmpty) = false := by
    obtain ⟨u, hu, hname⟩ := hused
    cases hsuits u hu hname with
    | bare hvalue => rw [hvalue, Bool.false_and]
    | valued v _ _ =>
      have hne := List.ne_nil_of_mem (mem_values_iff.mpr hu)
      simp [hne]
  have haccepts : (r.values f.name).all f.accepts = true := by
    refine List.all_eq_true.mpr fun v hv => ?_
    cases hsuits _ (mem_values_iff.mp hv) rfl with
    | valued _ _ haccepts => exact haccepts
  have hcount : r.uses.countP (fun u => u.name = f.name) =
      (r.uses.map (·.name)).count f.name := by
    rw [List.count, List.countP_map]
    rfl
  rw [checkFlag, hvalued, haccepts, honce, hcount]
  by_cases htwice : (r.uses.map (·.name)).count f.name ≤ 1
  · simp [htwice]
  · simp [htwice, Nat.lt_of_not_le htwice]

/-- A reading of uses that all suit a flag passes the check if no flag is used twice. -/
theorem check_eq_ite {g : Grammar} {uses : List Use} (hsub : g.subcommands = [])
    (honce : ∀ f ∈ g.flags, f.isRepeatable = false) (htakes : ∀ u ∈ uses, g.Takes u) :
    check { uses := uses } g = if (uses.map (·.name)).Nodup then .ok ()
      else .error .unexpectedMultipleUsage := by
  have hchecked : ∀ f ∈ (uses.map (·.name)).eraseDups.filterMap g.flag?,
      checkFlag { uses := uses } f = if (uses.map (·.name)).count f.name ≤ 1 then .ok ()
        else .error .unexpectedMultipleUsage := by
    intro f hf
    obtain ⟨_, hname, hflag⟩ := List.mem_filterMap.mp hf
    obtain ⟨u, hu, rfl⟩ := List.mem_map.mp (List.mem_eraseDups.mp hname)
    have hf : f.name = u.name := by simpa using List.find?_some hflag
    refine checkFlag_eq_ite (honce f (List.mem_of_find?_eq_some hflag)) ?_ ⟨u, hu, hf.symm⟩
    -- every other use of this name suits a flag too, and it is the same flag
    intro v hv hvname
    obtain ⟨f', hflag', hsuits⟩ := htakes v hv
    rw [hvname, hf, hflag] at hflag'
    rwa [Option.some.inj hflag']
  have hall : (∀ f ∈ (uses.map (·.name)).eraseDups.filterMap g.flag?,
      (uses.map (·.name)).count f.name ≤ 1) ↔ (uses.map (·.name)).Nodup := by
    rw [List.nodup_iff_count]
    constructor
    · intro h name
      by_cases hname : name ∈ uses.map (·.name)
      · obtain ⟨u, hu, rfl⟩ := List.mem_map.mp hname
        obtain ⟨f, hflag, hsuits⟩ := htakes u hu
        rw [hsuits.name_eq]
        exact h f (List.mem_filterMap.mpr ⟨_, List.mem_eraseDups.mpr hname, hflag⟩)
      · -- names that do not occur are not looked at, but they do no harm either
        rw [List.count_eq_zero_of_not_mem hname]
        exact Nat.zero_le 1
    · intro h f _
      exact h f.name
  rw [check, hsub, forM_eq_ite hchecked]
  simp only [hall]
  rfl

end Reading

end RoundScheduler.CommandLine
