import RoundScheduler.Proofs.Determinism.Runs

/-!
# Determinism

Two runs that follow one agenda may differ in how long they are and in the order in which threads
and the client get into the critical section. What was recorded of them does not: the turns, the
starts of rounds and the owners of every lock of one run begin those of the other.
-/

namespace RoundScheduler

namespace System

variable {sys : System} {c : Config}

/-- A system that records its schedule has one. -/
lemma Reachable.schedule?_eq (h : Reachable c sys) (hrecord : c.recordSchedule = true) :
    sys.schedule? = some sys.state.journal.schedule := by
  rw [schedule?, h.config_eq, if_pos hrecord]

end System

/-- Whatever the interleaving, two runs of one agenda agree on the turns, on the starts of rounds
and on the owners of every lock, as far as both got. -/
theorem schedules_comparable {w : Agenda} {sys₁ sys₂ : System}
    (hrecord : w.config.recordSchedule = true) (h₁ : w.Reaches sys₁) (h₂ : w.Reaches sys₂) :
    ∃ tr₁ tr₂, sys₁.schedule? = some tr₁ ∧ sys₂.schedule? = some tr₂ ∧
      (tr₁.turns <+: tr₂.turns ∨ tr₂.turns <+: tr₁.turns) ∧
      (tr₁.roundStarts <+: tr₂.roundStarts ∨ tr₂.roundStarts <+: tr₁.roundStarts) ∧
      ∀ l, tr₁.lockGrants l <+: tr₂.lockGrants l ∨ tr₂.lockGrants l <+: tr₁.lockGrants l := by
  have hschedule₁ := h₁.reachable.schedule?_eq hrecord
  have hschedule₂ := h₂.reachable.schedule?_eq hrecord
  obtain ⟨start, hstart, hpath₁⟩ := h₁
  obtain ⟨start', hstart', hpath₂⟩ := h₂
  obtain rfl : start = start' := Option.some_inj.mp (hstart.symm.trans hstart')
  -- Both runs have courses that come from the same one, and those can be continued to meet.
  obtain ⟨rounds, hshadow⟩ := Shadow.of_start hstart
  have hsound := Shadow.sound_startCourse w rounds
  obtain ⟨c₁, hgoes₁, -, hshadow₁⟩ := Shadow.path hstart hsound hshadow hpath₁
  obtain ⟨c₂, hgoes₂, -, hshadow₂⟩ := Shadow.path hstart hsound hshadow hpath₂
  obtain ⟨d, hgrows₁, hgrows₂⟩ := Course.exists_grows hgoes₁ hgoes₂
  refine ⟨_, _, hschedule₁, hschedule₂, ?_, ?_, fun l => ?_⟩
  · have hturns := List.prefix_or_prefix_of_prefix hgrows₁.turns hgrows₂.turns
    rwa [hshadow₁.mirrors.turns, hshadow₂.mirrors.turns] at hturns
  · have hstarts := List.prefix_or_prefix_of_prefix hgrows₁.starts hgrows₂.starts
    rwa [hshadow₁.mirrors.starts, hshadow₂.mirrors.starts] at hstarts
  · have hgrants := List.prefix_or_prefix_of_prefix (hgrows₁.grants l) (hgrows₂.grants l)
    rwa [hshadow₁.mirrors.grants, hshadow₂.mirrors.grants] at hgrants

/-! ### A request that races a release -/

/-- An agenda by which two units ask for one lock, and the first one releases it. -/
def lockRace : Agenda where
  config := { primaries := 2, stepsPerPrimary := 2, recordSchedule := true }
  eligible _ := true
  locks := 1
  units := [[⟨.step (.lock ⟨0⟩), true⟩, ⟨.unlock ⟨0⟩, true⟩], [⟨.step (.lock ⟨0⟩), true⟩]]

/-- The moves until the first unit owns the lock. -/
def untilOwned : List Move :=
  [.call (.client 0) (.submit (.scripted 0)), .advance, .advance,
    .call (.client 0) (.submit (.scripted 1)), .advance, .advance,
    .call (.unit ⟨0⟩) (.lock ⟨0⟩), .advance, .advance, .advance, .advance, .advance]

/-- The moves by which the lock is released before the second unit asks for it. -/
def releaseFirst : List Move :=
  untilOwned ++ [.call (.unit ⟨0⟩) (.unlock ⟨0⟩), .call (.unit ⟨1⟩) (.lock ⟨0⟩), .advance, .advance]

/-- The moves by which the second unit asks for the lock while it is owned. -/
def requestFirst : List Move :=
  untilOwned ++ [.call (.unit ⟨1⟩) (.lock ⟨0⟩), .advance, .advance, .advance, .advance]

/-- If the second unit asks first it owns the lock later, but nobody else gets it before. -/
theorem schedules_comparable_lockRace :
    ∃ sys₁ sys₂ tr₁ tr₂, lockRace.run? releaseFirst = some sys₁ ∧
      lockRace.run? requestFirst = some sys₂ ∧ sys₁.schedule? = some tr₁ ∧
      sys₂.schedule? = some tr₂ ∧ tr₁.lockGrants ⟨0⟩ = [⟨0⟩, ⟨1⟩] ∧ tr₂.lockGrants ⟨0⟩ = [⟨0⟩] ∧
      (tr₁.turns <+: tr₂.turns ∨ tr₂.turns <+: tr₁.turns) := by
  obtain ⟨sys₁, sys₂, hrun₁, hrun₂, hgrants₁, hgrants₂⟩ : ∃ sys₁ sys₂,
      lockRace.run? releaseFirst = some sys₁ ∧ lockRace.run? requestFirst = some sys₂ ∧
      (sys₁.schedule?.map fun tr => tr.lockGrants ⟨0⟩) = some [⟨0⟩, ⟨1⟩] ∧
      (sys₂.schedule?.map fun tr => tr.lockGrants ⟨0⟩) = some [⟨0⟩] :=
    ⟨_, _, rfl, rfl, rfl, rfl⟩
  obtain ⟨tr₁, tr₂, htr₁, htr₂, hturns, -, -⟩ := schedules_comparable (w := lockRace) rfl
    (Agenda.reaches_of_run? hrun₁) (Agenda.reaches_of_run? hrun₂)
  rw [htr₁] at hgrants₁
  rw [htr₂] at hgrants₂
  exact ⟨sys₁, sys₂, tr₁, tr₂, hrun₁, hrun₂, htr₁, htr₂, Option.some_inj.mp hgrants₁,
    Option.some_inj.mp hgrants₂, hturns⟩

end RoundScheduler
