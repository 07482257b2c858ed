import RoundScheduler.CommandLine.Flag
import RoundScheduler.Config

/-!
# Configurations as flags
-/

namespace RoundScheduler

open CommandLine

/-- The word that a text writes. -/
def readWord? (s : String) : Option Nat := (Numeral.read s.toList).toOption

/-- A flag whose value is a word. -/
def wordFlag (name : String) : Flag := { name := name, accepts := fun s => (readWord? s).isSome }

namespace Config

/-- The flags of a configuration, one for each field. -/
def flags : List Flag :=
  [wordFlag "primaries", wordFlag "steps-per-primary", wordFlag "admission-factor",
    wordFlag "admission-slack", { name := "record-schedule", takesValue := false },
    { name := "thread-name-prefix" }]

/-- The word that a flag came with, or a default. -/
def wordOf (r : Reading) (name : String) (default : Nat) : Nat :=
  ((r.value? name).bind readWord?).getD default

/-- The configuration that a command line describes, fields without a flag being standard. -/
def ofReading (r : Reading) : Config :=
  { primaries := wordOf r "primaries" standard.primaries
    stepsPerPrimary := wordOf r "steps-per-primary" standard.stepsPerPrimary
    admissionFactor := wordOf r "admission-factor" standard.admissionFactor
    admissionSlack := wordOf r "admission-slack" standard.admissionSlack
    recordSchedule := r.has "record-schedule"
    threadNamePrefix := (r.value? "thread-name-prefix").getD standard.threadNamePrefix }

/-- Reads a configuration from the arguments of a command line. -/
def ofArguments (args : List String) : Except ArgumentError Config := do
  let g : Grammar := { flags := flags }
  let r ← g.read args
  r.check g
  return ofReading r

end Config

end RoundScheduler
