/-!
# File trees

Where files can be created. A tree knows its directories and its devices; any other name stands for
a file that does not exist yet. `FileTree.create` looks at a path from left to right, so that the
first name that leads nowhere decides the error.
-/

namespace RoundScheduler.CommandLine

/-- Why a file cannot be created or written. -/
inductive FileError where
  /-- A directory on the way does not exist. -/
  | notFound
  /-- Something on the way is no directory. -/
  | notDirectory
  /-- The path leads to a directory. -/
  | isDirectory
  /-- A name or the whole path is too long. -/
  | nameTooLong
  /-- There is no room for what is written. -/
  | noSpace
  /-- It is not allowed. -/
  | notPermitted
  deriving DecidableEq

/-- The text of an error, with its number. -/
def FileError.message : FileError → String
  | notFound => "No such file or directory (os error 2)"
  | notPermitted => "Permission denied (os error 13)"
  | notDirectory => "Not a directory (os error 20)"
  | isDirectory => "Is a directory (os error 21)"
  | noSpace => "No space left on device (os error 28)"
  | nameTooLong => "File name too long (os error 36)"

/-- The names from the root of a tree to a place in it. -/
abbrev Place := List String

/-- What a name in a tree stands for. -/
inductive Node where
  /-- A directory. -/
  | directory
  /-- A device; one that is full takes nothing. -/
  | device (isFull : Bool)
  deriving DecidableEq

/-- The directories and devices of a machine. -/
structure FileTree where
  /-- What there is, the root apart. -/
  nodes : List (Place × Node)
  /-- The directory from which relative paths start. -/
  home : Place := []

namespace FileTree

/-- The most bytes that a name may have. -/
def nameLimit : Nat := 255

/-- The most bytes that a path may have. -/
def pathLimit : Nat := 4095

/-- What stands at a place. -/
def node? (t : FileTree) (p : Place) : Option Node :=
  if p = [] then some .directory else (t.nodes.find? fun n => n.1 = p).map (·.2)

/-- The directory that some names lead to from a place. -/
def walk (t : FileTree) (p : Place) : List String → Except FileError Place
  | [] => .ok p
  | name :: names =>
    if name = "." then t.walk p names
    else if name = ".." then t.walk p.dropLast names
    else if nameLimit < name.utf8ByteSize then .error .nameTooLong
    else
      match t.node? (p ++ [name]) with
      | some .directory => t.walk (p ++ [name]) names
      | some (.device _) => .error .notDirectory
      | none => .error .notFound

/-- The place of a file that is created in a directory. -/
def createIn (t : FileTree) (p : Place) (name : String) : Except FileError Place :=
  if name = "." || name = ".." then .error .isDirectory
  else if nameLimit < name.utf8ByteSize then .error .nameTooLong
  else if t.node? (p ++ [name]) = some .directory then .error .isDirectory
  else .ok (p ++ [name])

/-- The place of a file that is created at a path. A slash at the end asks for a directory, and
several slashes count as one. -/
def create (t : FileTree) (path : String) : Except FileError Place :=
  if path = "" then .error .notFound
  else if pathLimit < path.utf8ByteSize then .error .nameTooLong
  else
    let names := (path.splitOn "/").filter (· ≠ "")
    match names.getLast? with
    | none => .error .isDirectory
    | some last => do
      let p ← t.walk (if path.startsWith "/" then [] else t.home) names.dropLast
      if path.endsWith "/" then .error .isDirectory else t.createIn p last

/-- Whether what is written at a path finds no room. -/
def isFull (t : FileTree) (path : String) : Bool :=
  match t.create path with
  | .ok p => t.node? p = some (.device true)
  | .error _ => false

end FileTree

end RoundScheduler.CommandLine
