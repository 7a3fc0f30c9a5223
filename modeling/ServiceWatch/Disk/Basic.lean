import ServiceWatch.Path
import ServiceWatch.SystemError

/-!
# A model of a file system

A disk holds nodes at locations.  A location is the list of names that lead to it from the root,
which is always a directory; every other node is a file with its content or a directory.  The
model has no links and no permissions but the one to be run as a program.

A path is followed segment by segment, from the root or from the working directory: whatever
stands in front of the last segment has to be a directory.  What the last segment names is left to
the operation, for it may be a node, a node yet to be made, or a directory that has no name of its
own because the path ends in `.` or `..`.
-/

namespace ServiceWatch

/-- Where a node is: the names that lead to it from the root. -/
abbrev Location := List String

/-- What is at a location. -/
inductive Node where
  | directory
  | file (content : List UInt8) (isProgram : Bool)
deriving DecidableEq, Repr, Inhabited

/-- A file system and the directory that relative paths start from. -/
structure Disk where
  nodes : List (Location × Node)
  workingDirectory : Location
deriving DecidableEq, Repr, Inhabited

namespace Disk

/-- What is at a location. -/
def node? (disk : Disk) (location : Location) : Option Node :=
  if location = [] then some .directory else disk.nodes.lookup location

/-- The nodes with this node at a location, in place of what was there or behind all others. -/
def putNode (location : Location) (node : Node) :
    List (Location × Node) → List (Location × Node)
  | [] => [(location, node)]
  | (other, old) :: rest =>
    if location = other then (other, node) :: rest else (other, old) :: putNode location node rest

/-- The disk with this node at a location. -/
def put (disk : Disk) (location : Location) (node : Node) : Disk :=
  { disk with nodes := putNode location node disk.nodes }

/-- The disk without a node at a location. -/
def drop (disk : Disk) (location : Location) : Disk :=
  { disk with nodes := disk.nodes.filter fun entry => entry.1 ≠ location }

/-! ### Following a path -/

/-- The greatest number of bytes in a name. -/
def nameLimit : Nat := 255

/-- The greatest number of bytes in a path. -/
def pathLimit : Nat := 4095

/-- What a path names. -/
inductive Target where
  /-- A name in a directory; `hasSlash` tells of a slash behind the name, which only a directory
  may have. -/
  | entry (directory : Location) (name : String) (hasSlash : Bool)
  /-- A directory that the path reaches without naming it last. -/
  | place (location : Location)
deriving DecidableEq, Repr, Inhabited

/-- What is at a name in a directory. -/
def child? (disk : Disk) (directory : Location) (name : String) :
    Except SystemError (Option Node) :=
  if nameLimit < name.utf8ByteSize then .error .nameTooLong
  else .ok (disk.node? (directory ++ [name]))

/-- Steps from a directory into the one that a segment names. -/
def enter (disk : Disk) (directory : Location) (segment : String) :
    Except SystemError Location := do
  if segment = "." then .ok directory
  else if segment = ".." then .ok directory.dropLast
  else
    match ← disk.child? directory segment with
    | some .directory => .ok (directory ++ [segment])
    | some (.file ..) => .error .notDirectory
    | none => .error .notFound

/-- Follows segments to the last one. -/
def followSegments (disk : Disk) (hasSlash : Bool) :
    Location → List String → Except SystemError Target
  | directory, [] => .ok (.place directory)
  | directory, [last] =>
    if last = "." then .ok (.place directory)
    else if last = ".." then .ok (.place directory.dropLast)
    else .ok (.entry directory last hasSlash)
  | directory, segment :: rest => do
    let directory ← disk.enter directory segment
    disk.followSegments hasSlash directory rest

/-- The segments of a path that are not empty. -/
def segments (path : String) : List String :=
  ((Text.splitOn '/' path.toList).filter (· ≠ [])).map String.ofList

/-- Follows a path up to its last segment. -/
def follow (disk : Disk) (path : String) : Except SystemError Target :=
  if path.toList.contains (Char.ofNat 0) then .error .nulInPath
  else if path = "" then .error .notFound
  else if pathLimit < path.utf8ByteSize then .error .nameTooLong
  else
    disk.followSegments (path.toList.getLast? = some '/')
      (if path.toList.head? = some '/' then [] else disk.workingDirectory) (segments path)

/-- What a path names, if it names something. -/
def find (disk : Disk) (path : String) : Except SystemError (Location × Node) := do
  match ← disk.follow path with
  | .place location => .ok (location, .directory)
  | .entry directory name hasSlash =>
    match ← disk.child? directory name with
    | none => .error .notFound
    | some (.file content isProgram) =>
      if hasSlash then .error .notDirectory
      else .ok (directory ++ [name], .file content isProgram)
    | some .directory => .ok (directory ++ [name], .directory)

/-- The content of the file that a path names. -/
def contentOf? (disk : Disk) (path : String) : Option (List UInt8) :=
  match disk.find path with
  | .ok (_, .file content _) => some content
  | _ => none

/-- The locations below a directory with what is there, in the order of the disk. -/
def below (disk : Disk) (directory : Location) : List (Location × Node) :=
  disk.nodes.filterMap fun (location, node) =>
    if directory.isPrefixOf location ∧ location ≠ directory then
      some (location.drop directory.length, node)
    else none

end Disk

end ServiceWatch
