import ServiceWatch.Command.Basic
import ServiceWatch.Disk.Basic

/-!
# Which file a command runs

A program whose name has a slash is the file at that path; any other is looked for in a list of
directories.  Only a file that is marked as a program can be run, and no argument may be longer
than the operating system takes.
-/

namespace ServiceWatch.Command

/-- The greatest number of bytes in an argument. -/
def argumentLimit : Nat := 131071

/-- The program at a path. -/
def programAt (disk : Disk) (path : String) : Except SystemError Location := do
  match ← disk.find path with
  | (location, .file _ true) => .ok location
  | (_, .file _ false) => .error .permissionDenied
  | (_, .directory) => .error .permissionDenied

/-- The first program with this name in the directories.  Directories without one are passed over;
`isDenied` tells that one of them had a file of that name that is no program. -/
def lookFor (disk : Disk) (name : String) :
    (isDenied : Bool) → (directories : List String) → Except SystemError Location
  | isDenied, [] => .error (if isDenied then .permissionDenied else .notFound)
  | isDenied, directory :: rest =>
    match programAt disk (directory ++ "/" ++ name) with
    | .ok location => .ok location
    | .error .permissionDenied => lookFor disk name true rest
    | .error .notFound => lookFor disk name isDenied rest
    | .error .notDirectory => lookFor disk name isDenied rest
    | .error refusal => .error refusal

/-- Whether a text holds the null character. -/
def hasNul (text : String) : Bool :=
  text.toList.contains (Char.ofNat 0)

/-- The file that a command runs, given the directories to look in. -/
def start (disk : Disk) (directories : List String) (command : Command) :
    Except SystemError Location := do
  if hasNul command.program || command.arguments.any hasNul then .error .nulInArgument
  else if command.program = "" then .error .notFound
  else
    let location ←
      if command.program.toList.contains '/' then programAt disk command.program
      else lookFor disk command.program false directories
    if (command.program :: command.arguments).any (argumentLimit < ·.utf8ByteSize) then
      .error .argumentsTooLong
    else .ok location

end ServiceWatch.Command
