/-!
# Flags

How a command line is read. A flag is written `--name`, and some also by one letter; a flag with a
value is followed by it, as `--name=value` or as the next argument. The reading goes from left to
right and stops at once at an argument that makes no sense. Only then are the flags that were used
looked at one by one, in the order of their first use.
-/

namespace RoundScheduler.CommandLine

/-- Why a command line is not accepted, or asks for something else. -/
inductive ArgumentError where
  /-- An argument that is no flag and that nobody waits for. -/
  | unknownArgument
  /-- A flag without its value. -/
  | emptyValue
  /-- A value of the wrong form. -/
  | valueValidation
  /-- A flag that is used twice. -/
  | unexpectedMultipleUsage
  /-- A value for a flag that takes none. -/
  | tooManyValues
  /-- No subcommand where one is needed. -/
  | missingSubcommand
  /-- The help is asked for. -/
  | displayHelp
  /-- The version is asked for. -/
  | displayVersion
  deriving DecidableEq

/-- A flag that a command line may use. -/
structure Flag where
  /-- The name, without dashes. -/
  name : String
  /-- The letter that stands for it, if there is one. -/
  letter : Option Char := none
  /-- Whether it is followed by a value. -/
  takesValue : Bool := true
  /-- Whether it may be used more than once. -/
  isRepeatable : Bool := false
  /-- Whether a value has the right form. -/
  accepts : String → Bool := fun _ => true

/-- What a command line may hold. -/
structure Grammar where
  /-- The flags. -/
  flags : List Flag
  /-- The subcommands; one of them has to follow, unless there are none. -/
  subcommands : List String := []
  /-- Whether the version can be asked for. -/
  hasVersion : Bool := false

/-- One use of a flag. -/
structure Use where
  /-- The name of the flag. -/
  name : String
  /-- The value it came with. -/
  value : Option String
  deriving DecidableEq

/-- A command line that was read. -/
structure Reading where
  /-- The uses of flags, in order. -/
  uses : List Use := []
  /-- The flag that still waits for its value at the end. -/
  unfinished : Option String := none
  /-- The subcommand, with the arguments behind it. -/
  subcommand : Option (String × List String) := none
  deriving DecidableEq

/-! ### Arguments -/

/-- What an argument looks like. -/
inductive Argument where
  /-- Two dashes alone: no flags behind this. -/
  | separator
  /-- A name behind two dashes, with what stands behind the first equals sign. -/
  | long (name : String) (value : Option String)
  /-- Letters behind one dash. -/
  | letters (cs : List Char)
  /-- Anything else. -/
  | plain (s : String)
  deriving DecidableEq

/-- Splits a name from the value behind the first equals sign. -/
def splitValue (cs : List Char) : String × Option String :=
  match cs.dropWhile (· ≠ '=') with
  | [] => (String.ofList cs, none)
  | _ :: value => (String.ofList (cs.takeWhile (· ≠ '=')), some (String.ofList value))

/-- What an argument looks like. A dash alone is an ordinary argument. -/
def Argument.ofText (s : String) : Argument :=
  match s.toList with
  | ['-', '-'] => .separator
  | '-' :: '-' :: cs => .long (splitValue cs).1 (splitValue cs).2
  | '-' :: c :: cs => .letters (c :: cs)
  | _ => .plain s

namespace Grammar

/-- The flag with a name. -/
def flag? (g : Grammar) (name : String) : Option Flag := g.flags.find? fun f => f.name = name

/-- The flag with a letter. -/
def flagOfLetter? (g : Grammar) (c : Char) : Option Flag :=
  g.flags.find? fun f => f.letter = some c

/-! ### Reading -/

/-- The uses of some letters behind one dash, and the flag that waits for the next argument. -/
def readLetters (g : Grammar) : List Char → Except ArgumentError (List Use × Option Flag)
  | [] => .ok ([], none)
  | c :: cs =>
    match g.flagOfLetter? c with
    | none =>
      if c = 'h' then .error .displayHelp
      else if c = 'V' && g.hasVersion then .error .displayVersion
      else .error .unknownArgument
    | some f =>
      if f.takesValue then
        match cs with
        | [] => .ok ([], some f)
        | '=' :: value => .ok ([⟨f.name, some (String.ofList value)⟩], none)
        | value => .ok ([⟨f.name, some (String.ofList value)⟩], none)
      else (g.readLetters cs).map fun (uses, open?) => (⟨f.name, none⟩ :: uses, open?)

/-- The uses of a name behind two dashes, and the flag that waits for the next argument. -/
def readLong (g : Grammar) (name : String) (value : Option String) :
    Except ArgumentError (List Use × Option Flag) :=
  match g.flag? name, value with
  | some f, some v => if f.takesValue then .ok ([⟨name, some v⟩], none) else .error .tooManyValues
  | some f, none => if f.takesValue then .ok ([], some f) else .ok ([⟨name, none⟩], none)
  | none, value =>
    if name = "help" || name = "version" && g.hasVersion then
      if value.isSome then .error .tooManyValues
      else if name = "help" then .error .displayHelp
      else .error .displayVersion
    else .error .unknownArgument

/-- The use of a flag whose value did not come. -/
def unmet (open? : Option Flag) : List Use := (open?.map fun f => ⟨f.name, none⟩).toList

/-- A reading with more uses in front. -/
def prepend (uses : List Use) (r : Reading) : Reading := { r with uses := uses ++ r.uses }

/-- Reads arguments; `open?` is the flag that waits for its value. -/
def readFrom (g : Grammar) (open? : Option Flag) : List String → Except ArgumentError Reading
  | [] => .ok { uses := unmet open?, unfinished := open?.map (·.name) }
  | arg :: args =>
    match Argument.ofText arg, open? with
    | .separator, _ =>
      if args = [] then .ok { uses := unmet open?, unfinished := open?.map (·.name) }
      else .error .unknownArgument
    | .long name value, _ => do
      let (uses, next?) ← g.readLong name value
      return prepend (unmet open? ++ uses) (← g.readFrom next? args)
    | .letters cs, _ => do
      let (uses, next?) ← g.readLetters cs
      return prepend (unmet open? ++ uses) (← g.readFrom next? args)
    | .plain s, some f => (g.readFrom none args).map (prepend [⟨f.name, some s⟩])
    | .plain s, none =>
      if g.subcommands.contains s then .ok { subcommand := some (s, args) }
      else .error .unknownArgument

/-- Reads a command line. -/
def read (g : Grammar) (args : List String) : Except ArgumentError Reading := g.readFrom none args

end Grammar

/-! ### Checking -/

namespace Reading

/-- The values that a flag came with. -/
def values (r : Reading) (name : String) : List String :=
  (r.uses.filter fun u => u.name = name).filterMap (·.value)

/-- The value that a flag came with first. -/
def value? (r : Reading) (name : String) : Option String := (r.values name).head?

/-- Whether a flag was used. -/
def has (r : Reading) (name : String) : Bool := r.uses.any fun u => u.name = name

/-- Looks at the uses of one flag: the value must be there, it must have the right form, and the
flag must not have been used before. -/
def checkFlag (r : Reading) (f : Flag) : Except ArgumentError Unit :=
  if f.takesValue && (r.values f.name).isEmpty then .error .emptyValue
  else if !(r.values f.name).all f.accepts then .error .valueValidation
  else if !f.isRepeatable && 1 < r.uses.countP (fun u => u.name = f.name) then
    .error .unexpectedMultipleUsage
  else .ok ()

/-- Looks at the uses of flags in the order of their first use; before that at the last argument,
if it left a flag without any value, and for a subcommand. -/
def check (r : Reading) (g : Grammar) : Except ArgumentError Unit :=
  if r.unfinished.any fun name => (r.values name).isEmpty then .error .emptyValue
  else if !g.subcommands.isEmpty && r.subcommand.isNone then .error .missingSubcommand
  else ((r.uses.map (·.name)).eraseDups.filterMap g.flag?).forM r.checkFlag

end Reading

end RoundScheduler.CommandLine
