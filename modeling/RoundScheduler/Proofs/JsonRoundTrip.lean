import RoundScheduler.Config.Json
import RoundScheduler.Proofs.Json.ReadBack
import RoundScheduler.Schedule.Json
import RoundScheduler.Summary.Json

/-!
# Records read back from their texts

Configurations, summaries and schedules are written as JSON records and read from any spelling of
such a record. What is written of one names every field once and gives each number as a numeral, so
reading it finds the values again, provided that the numbers are words.
-/

namespace RoundScheduler

open Json

/-! ### Reading records -/

namespace Json.Value

/-- A word reads back as a number. -/
lemma word?_nat {n : Nat} (h : Word.Fits n) : (nat n).word? = some n := if_pos h

/-- A list is plain if all that is written of its elements is. -/
lemma arePlain_map {α : Type} {write : α → Value} (h : ∀ x, (write x).isPlain = true)
    (xs : List α) : arePlain (xs.map write) = true := by
  induction xs with
  | nil => rfl
  | cons x xs ih =>
    rw [List.map_cons, arePlain, h x, ih]
    rfl

/-- An object is plain if its members are. -/
lemma isPlain_record {members : List (String × Value)} (h : ∀ m ∈ members, m.2.isPlain = true) :
    (record members).isPlain = true := by
  rw [record, isPlain]
  induction members with
  | nil => rfl
  | cons m ms ih =>
    rw [List.map_cons, membersArePlain, h m List.mem_cons_self,
      ih fun m' hm' => h m' (List.mem_cons_of_mem m hm')]
    rfl

/-- If names are distinct, there is one member with the name of a given one. -/
lemma filter_eq_singleton {members : List (String × Value)}
    (hnodup : (members.map Prod.fst).Nodup) {m : String × Value} (hm : m ∈ members) :
    members.filter (fun m' => m'.1 = m.1) = [m] := by
  induction members with
  | nil => cases hm
  | cons x xs ih =>
    obtain ⟨hx, hxs⟩ := List.nodup_cons.mp (List.map_cons ▸ hnodup)
    rcases List.mem_cons.mp hm with rfl | hm
    · have hother : ∀ y ∈ xs, ¬ y.1 = m.1 := fun y hy heq =>
        hx (heq ▸ List.mem_map_of_mem hy)
      rw [List.filter_cons_of_pos (by simp), List.filter_eq_nil_iff.mpr (by simpa using hother)]
    · have hother : x.1 ≠ m.1 := fun heq => hx (heq ▸ List.mem_map_of_mem hm)
      rw [List.filter_cons_of_neg (by simpa using hother), ih hxs hm]

/-- The members of an object are found by their names, if no two have the same. -/
lemma member?_record {members : List (String × Value)} (hnodup : (members.map Prod.fst).Nodup)
    {m : String × Value} (hm : m ∈ members) :
    member? (members.map fun (name, v) => (some name, v)) m.1 = some m.2 := by
  have hone := filter_eq_singleton hnodup hm
  rw [member?, List.filter_map]
  simp only [Function.comp_def, Option.some.injEq, hone, List.map_cons, List.map_nil]

/-- The fields of a record are found by their names. -/
lemma fields?_record {members : List (String × Value)} (hnodup : (members.map Prod.fst).Nodup) :
    (record members).fields? (members.map Prod.fst) = some (members.map Prod.snd) := by
  have hall : ∀ ms ⊆ members, (ms.map Prod.fst).mapM
      (member? (members.map fun (name, v) => (some name, v))) = some (ms.map Prod.snd) := by
    intro ms hms
    induction ms with
    | nil => rfl
    | cons m ms ih =>
      obtain ⟨hm, hms⟩ := List.cons_subset.mp hms
      rw [List.map_cons, List.mapM_cons, member?_record hnodup hm, ih hms]
      rfl
  rw [record, fields?, if_pos (by simp)]
  exact hall members (List.Subset.refl members)

/-- A list of records is read one by one. -/
lemma list?_array {α : Type} {item? : Value → Option α} {write : α → Value} {xs : List α}
    (h : ∀ x ∈ xs, item? (write x) = some x) : (array (xs.map write)).list? item? = some xs := by
  rw [list?]
  induction xs with
  | nil => rfl
  | cons x xs ih =>
    rw [List.map_cons, List.mapM_cons, h x List.mem_cons_self,
      ih fun y hy => h y (List.mem_cons_of_mem x hy)]
    rfl

end Json.Value

/-! ### Configurations -/

namespace Config

/-- What is written of a configuration is plain. -/
lemma isPlain_toJson (c : Config) : c.toJson.isPlain = true :=
  Value.isPlain_record (by simp [Value.isPlain, Value.nat, Value.text])

/-- What is written of a configuration means that configuration. -/
lemma ofJson?_toJson {c : Config} (h : c.Fits) : ofJson? c.toJson = some c := by
  have hfields : c.toJson.fields? fieldNames = some [.nat c.primaries, .nat c.stepsPerPrimary,
      .nat c.admissionFactor, .nat c.admissionSlack, .bool c.recordSchedule,
      .text c.threadNamePrefix] := Value.fields?_record (by simp)
  simp [ofJson?, hfields, Value.word?_nat, h.primaries, h.stepsPerPrimary, h.admissionFactor,
    h.admissionSlack, Value.bool?, Value.text, Value.text?]

end Config

/-! ### Summaries -/

namespace Summary

/-- The numbers of a summary. -/
def numbers (s : Summary) : List Nat :=
  [s.round, s.livePrimaries, s.liveSteps, s.stagedPrimaries, s.stagedStepsPerPrimary, s.listed,
    s.waiting, s.scheduled, s.terminated, s.locks]

/-- Every number of the summary is a word. -/
def Fits (s : Summary) : Prop := ∀ n ∈ s.numbers, Word.Fits n

instance (s : Summary) : Decidable s.Fits :=
  inferInstanceAs (Decidable (∀ n ∈ s.numbers, Word.Fits n))

/-- What is written of a summary is plain. -/
lemma isPlain_toJson (s : Summary) : s.toJson.isPlain = true :=
  Value.isPlain_record (by simp [Value.isPlain, Value.nat])

/-- What is written of a summary means that summary. -/
lemma ofJson?_toJson {s : Summary} (h : s.Fits) : ofJson? s.toJson = some s := by
  have hfields : s.toJson.fields? fieldNames = some (s.numbers.map Value.nat) :=
    Value.fields?_record (by simp)
  have hwords : (s.numbers.map Value.nat).mapM Value.word? = some s.numbers :=
    Value.list?_array fun n hn => Value.word?_nat (h n hn)
  simp only [ofJson?, hfields, Option.bind_eq_bind, Option.bind_some, hwords]
  rfl

end Summary

/-! ### Schedules -/

namespace Event

/-- The numbers of an event. -/
def numbers : Event → List Nat
  | roundStarted round primaries order => round :: primaries.map ThreadId.raw ++ order
  | turn round thread slot => [round, thread.raw, slot]
  | lockAcquired round lock thread _ => [round, lock.raw, thread.raw]
  | reconfigured round primaries steps => [round, primaries, steps]
  | terminated round thread => [round, thread.raw]

/-- Every number of the event is a word. -/
def Fits (e : Event) : Prop := ∀ n ∈ e.numbers, Word.Fits n

instance (e : Event) : Decidable e.Fits :=
  inferInstanceAs (Decidable (∀ n ∈ e.numbers, Word.Fits n))

/-- A tagged object is plain if its members are. -/
lemma isPlain_tagged (tag : String) {members : List (String × Value)}
    (h : ∀ m ∈ members, m.2.isPlain = true) : (tagged tag members).isPlain = true :=
  Value.isPlain_record (by simpa using Value.isPlain_record h)

/-- What is written of an event is plain. -/
lemma isPlain_toJson (e : Event) : e.toJson.isPlain = true := by
  have hnat : ∀ n, (Value.nat n).isPlain = true := fun n => by rw [Value.nat, Value.isPlain]
  have hthread : ∀ t, (ThreadId.toJson t).isPlain = true := fun t => hnat t.raw
  have hlock : ∀ l, (LockId.toJson l).isPlain = true := fun l => hnat l.raw
  cases e with
  | roundStarted round primaries order =>
    have hprimaries := Value.arePlain_map hthread primaries
    have horder := Value.arePlain_map hnat order
    exact isPlain_tagged _ (by simp [Value.isPlain, hnat, hprimaries, horder])
  | _ => exact isPlain_tagged _ (by simp [Value.isPlain, hnat, hthread, hlock])

/-- What is written of a thread means that thread. -/
lemma ofJson?_threadId {t : ThreadId} (h : Word.Fits t.raw) :
    ThreadId.ofJson? t.toJson = some t := by
  rw [ThreadId.ofJson?, ThreadId.toJson, Value.word?_nat h]
  rfl

/-- What is written of a lock means that lock. -/
lemma ofJson?_lockId {l : LockId} (h : Word.Fits l.raw) : LockId.ofJson? l.toJson = some l := by
  rw [LockId.ofJson?, LockId.toJson, Value.word?_nat h]
  rfl

/-- An object with one member is read by the name of the member. -/
lemma ofJson?_tagged (tag : String) (members : List (String × Value)) :
    ofJson? (tagged tag members) = ofTagged? tag (.record members) := rfl

/-- What is written of an event means that event. -/
lemma ofJson?_toJson {e : Event} (h : e.Fits) : ofJson? e.toJson = some e := by
  cases e with
  | roundStarted round primaries order =>
    have hfields : (Value.record [("round", .nat round),
        ("primaries", .array (primaries.map ThreadId.toJson)),
        ("total_order", .array (order.map Value.nat))]).fields?
          ["round", "primaries", "total_order"] = some _ := Value.fields?_record (by simp)
    have hround : Word.Fits round := h round (by simp [numbers])
    have hprimaries : ∀ t ∈ primaries, ThreadId.ofJson? t.toJson = some t := fun t ht =>
      ofJson?_threadId (h t.raw (by
        simp only [numbers, List.mem_append, List.mem_cons]
        exact .inl (.inr (List.mem_map_of_mem ht))))
    have horder : ∀ n ∈ order, (Value.nat n).word? = some n := fun n hn =>
      Value.word?_nat (h n (by simp [numbers, hn]))
    rw [toJson, ofJson?_tagged]
    simp [ofTagged?, roundStartedOfJson?, hfields, Value.word?_nat hround,
      Value.list?_array hprimaries, Value.list?_array horder]
  | turn round thread slot =>
    have hfields : (Value.record [("round", .nat round), ("thread", thread.toJson),
        ("slot", .nat slot)]).fields? ["round", "thread", "slot"] = some _ :=
      Value.fields?_record (by simp)
    obtain ⟨hround, hthread, hslot⟩ : Word.Fits round ∧ Word.Fits thread.raw ∧ Word.Fits slot := by
      simpa [Fits, numbers] using h
    rw [toJson, ofJson?_tagged]
    simp [ofTagged?, turnOfJson?, hfields, Value.word?_nat, ofJson?_threadId, hround, hthread,
      hslot]
  | lockAcquired round lock thread queued =>
    have hfields : (Value.record [("round", .nat round), ("lock", lock.toJson),
        ("thread", thread.toJson), ("queued", .bool queued)]).fields?
          ["round", "lock", "thread", "queued"] = some _ := Value.fields?_record (by simp)
    obtain ⟨hround, hlock, hthread⟩ :
        Word.Fits round ∧ Word.Fits lock.raw ∧ Word.Fits thread.raw := by
      simpa [Fits, numbers] using h
    rw [toJson, ofJson?_tagged]
    simp [ofTagged?, lockAcquiredOfJson?, hfields, Value.word?_nat, ofJson?_threadId,
      ofJson?_lockId, Value.bool?, hround, hlock, hthread]
  | reconfigured round primaries steps =>
    have hfields : (Value.record [("round", .nat round), ("primaries", .nat primaries),
        ("steps_per_primary", .nat steps)]).fields?
          ["round", "primaries", "steps_per_primary"] = some _ := Value.fields?_record (by simp)
    obtain ⟨hround, hprimaries, hsteps⟩ :
        Word.Fits round ∧ Word.Fits primaries ∧ Word.Fits steps := by
      simpa [Fits, numbers] using h
    rw [toJson, ofJson?_tagged]
    simp [ofTagged?, reconfiguredOfJson?, hfields, Value.word?_nat, hround, hprimaries, hsteps]
  | terminated round thread =>
    have hfields : (Value.record [("round", .nat round), ("thread", thread.toJson)]).fields?
        ["round", "thread"] = some _ := Value.fields?_record (by simp)
    obtain ⟨hround, hthread⟩ : Word.Fits round ∧ Word.Fits thread.raw := by
      simpa [Fits, numbers] using h
    rw [toJson, ofJson?_tagged]
    simp [ofTagged?, terminatedOfJson?, hfields, Value.word?_nat, ofJson?_threadId, hround,
      hthread]

end Event

namespace Schedule

/-- What is written of a schedule is plain. -/
lemma isPlain_toJson (s : Schedule) : s.toJson.isPlain = true := by
  have hevents := Value.arePlain_map Event.isPlain_toJson s.events
  exact Value.isPlain_record (by simp [Value.isPlain, hevents])

/-- What is written of a schedule means that schedule. -/
lemma ofJson?_toJson {s : Schedule} (h : ∀ e ∈ s.events, e.Fits) : ofJson? s.toJson = some s := by
  have hfields : s.toJson.fields? ["events"] = some _ := Value.fields?_record (by simp)
  have hevents := Value.list?_array fun e he => Event.ofJson?_toJson (h e he)
  simp [ofJson?, hfields, hevents]

end Schedule

/-! ### Texts -/

/-- Every configuration, summary and schedule whose numbers are words reads back from its text:
with any text at the start of the names of workers, and with any list of events of any kind. -/
theorem json_texts_read_back :
    (∀ c : Config, c.Fits → Config.ofJsonText? c.jsonText = some c) ∧
    (∀ s : Summary, s.Fits → Summary.ofJsonText? s.jsonText = some s) ∧
    ∀ s : Schedule, (∀ e ∈ s.events, e.Fits) → Schedule.ofJsonText? s.jsonText = some s := by
  refine ⟨fun c hc => ?_, fun s hs => ?_, fun s hs => ?_⟩
  · rw [Config.ofJsonText?, Config.jsonText, Value.parse?_compact c.isPlain_toJson]
    exact Config.ofJson?_toJson hc
  · rw [Summary.ofJsonText?, Summary.jsonText, Value.parse?_compact s.isPlain_toJson]
    exact Summary.ofJson?_toJson hs
  · rw [Schedule.ofJsonText?, Schedule.jsonText, Value.parse?_compact s.isPlain_toJson]
    exact Schedule.ofJson?_toJson hs

/-! ### Unusual values -/

/-- A configuration at the limits, with a quote, a backslash, a line end, a control and a character
outside of the basic plane in the names of its workers. -/
def escapedConfig : Config where
  primaries := Word.max
  stepsPerPrimary := 0
  recordSchedule := true
  threadNamePrefix := "\"\\\n\x01😀"

/-- A schedule with an event of every kind. -/
def everyEvent : Schedule where
  events := [.roundStarted 1 [⟨0⟩, ⟨7⟩] [], .turn 1 ⟨0⟩ 3, .lockAcquired 1 ⟨2⟩ ⟨0⟩ true,
    .reconfigured 1 4 Word.max, .terminated 1 ⟨7⟩]

/-- The text of the configuration has the escapes, and it reads back; so does the other record, and
a summary of large numbers. -/
theorem json_texts_read_back_escaped :
    escapedConfig.jsonText =
      "\x7b\"primaries\":18446744073709551615,\"steps_per_primary\":0," ++
        "\"admission_factor\":2,\"admission_slack\":50,\"record_schedule\":true," ++
        "\"thread_name_prefix\":\"\\\"\\\\\\n\\u0001😀\"\x7d" ∧
    Config.ofJsonText? escapedConfig.jsonText = some escapedConfig ∧
    Summary.ofJsonText? (Summary.jsonText { scheduled := Word.max }) =
      some { scheduled := Word.max } ∧
    Schedule.ofJsonText? everyEvent.jsonText = some everyEvent := by
  obtain ⟨hconfig, hsummary, hschedule⟩ := json_texts_read_back
  refine ⟨by decide +kernel, hconfig escapedConfig ?_, hsummary _ ?_, hschedule everyEvent ?_⟩
  · exact ⟨by decide, by decide, by decide, by decide⟩
  · decide
  · decide

end RoundScheduler
