import AccessTrace.SystemError

/-!
# Where pipes are found

Pipes live in the temporary directory under their names. A path is followed part by part from the
root; of directories there are only the one of the pipes and those above it. The part that fails
first decides the error, and only the last part may name something new.
-/

namespace AccessTrace

/-- Where a path leads: the names from the root, the innermost first. -/
abbrev Location := List String

/-- The path of the temporary directory. -/
def temporaryDirectory : String := "/tmp"

/-- The bytes of one name in a path at most. -/
def maxNameBytes : Nat := 255

/-- The bytes of a whole path at most. -/
def maxPathBytes : Nat := 4095

/-- The parts of a path. -/
def pathParts (path : String) : List String := path.splitOn "/"

/-- The path of a name in a directory. A name that is a path from the root is its own path. -/
def pathIn (directory name : String) : String :=
  if name.toList.head? = some '/' then name else directory ++ "/" ++ name

/-- The path of a pipe: its name within the temporary directory. -/
def pipePath (name : String) : String := pathIn temporaryDirectory name

/-- The part of a path behind the temporary directory, for a path that leads into it. -/
def withinTemporaryDirectory? (path : String) : Option String :=
  ((temporaryDirectory ++ "/").toList.isPrefixOf? path.toList).map String.ofList

/-- A directory for pipes, and the pipes made there and above. -/
structure PipeDirectory where
  /-- The path of the directory. -/
  path : String := temporaryDirectory
  pipes : List Location := []
  deriving DecidableEq

namespace PipeDirectory

/-- The directory itself. -/
def location (d : PipeDirectory) : Location := ((pathParts d.path).filter (· ≠ "")).reverse

/-- Whether a location is a directory: that of the pipes, or one above it. -/
def isDirectory (d : PipeDirectory) (l : Location) : Bool := l.isSuffixOf d.location

/-- Follows the parts of a path from the directory `l`. An empty part and `.` stay there, and `..`
leads one up; the root is above itself. A name has to be that of a directory unless it is last. -/
def follow (d : PipeDirectory) (l : Location) : List String → Except SystemError Location
  | [] => .ok l
  | part :: parts =>
    if part = "" ∨ part = "." then d.follow l parts
    else if part = ".." then d.follow l.tail parts
    else if maxNameBytes < part.utf8ByteSize then .error .nameTooLong
    else if d.isDirectory (part :: l) then d.follow (part :: l) parts
    else if parts.isEmpty then .ok (part :: l)
    else .error .notFound

/-- Where the path of a name leads. -/
def locate (d : PipeDirectory) (name : String) : Except SystemError Location :=
  let path := pathIn d.path name
  if path.toList.contains '\x00' then .error .nulInName
  else if maxPathBytes < path.utf8ByteSize then .error .nameTooLong
  else d.follow [] (pathParts path)

/-- Looks for the pipe of a name. -/
def find (d : PipeDirectory) (name : String) : Except SystemError Unit := do
  let l ← d.locate name
  if d.isDirectory l then .error .isADirectory
  else if l ∈ d.pipes then .ok ()
  else .error .notFound

/-- Makes a pipe of a name. -/
def make (d : PipeDirectory) (name : String) : Except SystemError PipeDirectory := do
  let l ← d.locate name
  if d.isDirectory l || l ∈ d.pipes then .error .alreadyExists
  else .ok { d with pipes := l :: d.pipes }

/-- Removes the pipe of a name. -/
def remove (d : PipeDirectory) (name : String) : PipeDirectory :=
  match d.locate name with
  | .ok l => { d with pipes := d.pipes.filter (· ≠ l) }
  | .error _ => d

end PipeDirectory

end AccessTrace
