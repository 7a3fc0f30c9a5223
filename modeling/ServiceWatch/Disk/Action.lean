import ServiceWatch.Disk.Basic
import ServiceWatch.Plan

/-!
# Actions on files

`Disk.Action` lists what the library asks of a file system, and `Disk.perform` says what each
action does to the model and what it replies.  An action that is refused changes nothing.
-/

namespace ServiceWatch.Disk

/-- A request to a file system. -/
inductive Action where
  /-- Reads a file. -/
  | read (path : String)
  | makeDirectory (path : String)
  /-- Asks whether there is a directory. -/
  | isDirectory (path : String)
  /-- Makes a file, or empties the one that is there. -/
  | create (path : String)
  /-- Writes at the end of a file; the reply is how many bytes were written. -/
  | append (path : String) (bytes : List UInt8)
  /-- Waits until a file is safe from a loss of power. -/
  | sync (path : String)
  /-- Moves a file to another path, in place of a file that is there. -/
  | rename (source target : String)
  /-- Removes a file. -/
  | remove (path : String)
deriving DecidableEq, Repr, Inhabited

/-- What an action is replied. -/
def Action.Reply : Action → Type
  | .read _ => Except SystemError (List UInt8)
  | .isDirectory _ => Bool
  | .append .. => Except SystemError Nat
  | _ => Except SystemError Unit

/-- The file system as plans see it. -/
def files : Interface := ⟨Action, Action.Reply⟩

variable (disk : Disk)

/-- Reads the file at a path. -/
def read (path : String) : Except SystemError (List UInt8) := do
  match ← disk.find path with
  | (_, .file content _) => .ok content
  | (_, .directory) => .error .isDirectory

/-- Makes a directory.  Its parent has to be there, and nothing may be at the path. -/
def makeDirectory (path : String) : Except SystemError Disk := do
  match ← disk.follow path with
  | .place _ => .error .alreadyExists
  | .entry directory name _ =>
    match ← disk.child? directory name with
    | some _ => .error .alreadyExists
    | none => .ok (disk.put (directory ++ [name]) .directory)

/-- Whether there is a directory at a path. -/
def isDirectory (path : String) : Bool :=
  match disk.find path with
  | .ok (_, .directory) => true
  | _ => false

/-- Makes a file or empties it. -/
def create (path : String) : Except SystemError Disk := do
  match ← disk.follow path with
  | .place _ => .error .isDirectory
  | .entry directory name hasSlash =>
    if hasSlash then .error .isDirectory
    else
      match ← disk.child? directory name with
      | some .directory => .error .isDirectory
      | some (.file _ isProgram) => .ok (disk.put (directory ++ [name]) (.file [] isProgram))
      | none => .ok (disk.put (directory ++ [name]) (.file [] false))

/-- Writes at the end of a file. -/
def append (path : String) (bytes : List UInt8) : Except SystemError Disk := do
  match ← disk.find path with
  | (location, .file content isProgram) =>
    .ok (disk.put location (.file (content ++ bytes) isProgram))
  | (_, .directory) => .error .isDirectory

/-- Moves a file. -/
def rename (source target : String) : Except SystemError Disk := do
  match ← disk.follow source, ← disk.follow target with
  | .entry oldPlace name hasSlash, .entry newPlace newName newSlash =>
    match ← disk.child? oldPlace name with
    | none => .error .notFound
    | some node =>
      let old ← disk.child? newPlace newName
      match node, old with
      | .directory, _ => .error .isDirectory
      | .file .., old =>
        if hasSlash || newSlash then .error .notDirectory
        else if old = some .directory then .error .isDirectory
        else if oldPlace ++ [name] = newPlace ++ [newName] then .ok disk
        else .ok ((disk.drop (oldPlace ++ [name])).put (newPlace ++ [newName]) node)
  | _, _ => .error .busy

/-- Removes a file. -/
def remove (path : String) : Except SystemError Disk := do
  match ← disk.follow path with
  | .place _ => .error .isDirectory
  | .entry directory name hasSlash =>
    match ← disk.child? directory name with
    | none => .error .notFound
    | some .directory => .error .isDirectory
    | some (.file ..) =>
      if hasSlash then .error .notDirectory else .ok (disk.drop (directory ++ [name]))

/-- The reply and the disk of an action that may be refused. -/
def settle (outcome : Except SystemError Disk) : Except SystemError Unit × Disk :=
  match outcome with
  | .ok next => (.ok (), next)
  | .error refusal => (.error refusal, disk)

/-- Performs an action: its reply and the disk afterwards. -/
def perform : (action : Action) → action.Reply × Disk
  | .read path => (disk.read path, disk)
  | .makeDirectory path => disk.settle (disk.makeDirectory path)
  | .isDirectory path => (disk.isDirectory path, disk)
  | .create path => disk.settle (disk.create path)
  | .append path bytes =>
    match disk.append path bytes with
    | .ok next => (.ok bytes.length, next)
    | .error refusal => (.error refusal, disk)
  | .sync _ => (.ok (), disk)
  | .rename source target => disk.settle (disk.rename source target)
  | .remove path => disk.settle (disk.remove path)

end ServiceWatch.Disk
