import ServiceWatch.Disk.Action
import ServiceWatch.Memory.Json
import ServiceWatch.Report
import ServiceWatch.Text.Utf8

/-!
# The memory in a file

The memory is kept in a file as one JSON document.  Reading it goes soft: without a file the memory
is blank, and so it is, with a concern, when there is a file that cannot be read as a memory.

A memory is saved under a name of the saving process's own beside the file and then moved into its
place, so whoever reads the file finds a whole document or none.  When a step of that fails, the
process removes what it wrote.
-/

namespace ServiceWatch.Store

open Disk (Action)

/-- Plans that act on files. -/
abbrev FilePlan := Plan Disk.files

/-- Why an operation on the file failed. -/
inductive Fault where
  | read (path : String) (refusal : SystemError)
  | write (path : String) (refusal : SystemError)
  /-- The file holds no memory. -/
  | undecodable (reason : String)
deriving DecidableEq, Repr, Inhabited

/-- The text of a fault. -/
def Fault.message : Fault → String
  | .read path refusal => "read error on " ++ path ++ ": " ++ refusal.message
  | .write path refusal => "write error on " ++ path ++ ": " ++ refusal.message
  | .undecodable reason => "deserialization error: " ++ reason

/-- The causes of a fault. -/
def Fault.causes : Fault → List String
  | .read _ refusal => [refusal.message]
  | .write _ refusal => [refusal.message]
  | .undecodable _ => []

/-! ### Reading -/

/-- The memory that the content of a file holds. -/
def decode (content : List UInt8) : Except Fault Memory :=
  match Memory.ofDocument content with
  | .ok memory => .ok memory
  | .error failure => .error (.undecodable (failure.message content))

/-- What reading gives for the reply to the request for the content. -/
def ofContent (path : String) : Except SystemError (List UInt8) → Except Fault (Option Memory)
  | .ok content => (decode content).map some
  | .error .notFound => .ok none
  | .error refusal => .error (.read path refusal)

/-- Reads the memory; there is none without a file. -/
def read (path : String) : FilePlan (Except Fault (Option Memory)) :=
  .ask (.read path) fun reply => .done (ofContent path reply)

/-- A memory, and the concern that it may stand for one that could not be read. -/
structure Loaded where
  memory : Memory
  concern : Option Concern
deriving DecidableEq, Repr, Inhabited

/-- What goes on with the outcome of reading. -/
def Loaded.ofOutcome : Except Fault (Option Memory) → Loaded
  | .ok memory => ⟨memory.getD .blank, none⟩
  | .error fault => ⟨.blank, some (.memoryUnreadable fault.message)⟩

/-- Reads the memory, which is blank if there is none that can be read. -/
def load (path : String) : FilePlan Loaded := do
  let outcome ← read path
  return .ofOutcome outcome

/-! ### Saving -/

/-- The bytes of the document that holds a memory. -/
def encode (memory : Memory) : List UInt8 :=
  Text.Utf8.encode memory.compact

/-- The path that a process writes to before it moves the document into place. -/
def draftPath (path : String) (process : Nat) : String :=
  Path.withName path
    ("." ++ (Path.name? path).getD "state" ++ "." ++ toString process ++ ".tmp")

/-- Fails for a reason that has to do with this path. -/
def failed (path : String) (refusal : SystemError) : FilePlan (Except Fault Unit) :=
  .done (.error (.write path refusal))

/-- Makes the directories, of which each is in the one before it, and goes on when all are there. -/
def descend (whole : String) (next : FilePlan (Except Fault Unit)) :
    List String → FilePlan (Except Fault Unit)
  | [] => next
  | directory :: rest =>
    .ask (.makeDirectory directory) fun
      | .ok () => descend whole next rest
      | .error refusal =>
        if refusal = .alreadyExists then
          .ask (.isDirectory directory) fun
            | true => descend whole next rest
            | false => failed whole refusal
        else failed whole refusal

/-- Makes the innermost of the directories that can be made, each of which is in the one behind it,
and then those that are in it.  `behind` are the directories that were not yet there. -/
def climb (whole : String) (next : FilePlan (Except Fault Unit)) :
    (behind : List String) → List String → FilePlan (Except Fault Unit)
  | behind, [] => descend whole next behind
  | behind, directory :: outer =>
    .ask (.makeDirectory directory) fun
      | .ok () => descend whole next behind
      | .error refusal =>
        if refusal = .notFound then climb whole next (directory :: behind) outer
        else if refusal = .alreadyExists then
          .ask (.isDirectory directory) fun
            | true => descend whole next behind
            | false => failed whole refusal
        else failed whole refusal

/-- Removes the draft, whether that works or not, and fails. -/
def abandon (draft path : String) (refusal : SystemError) : FilePlan (Except Fault Unit) :=
  .ask (.remove draft) fun _ => failed path refusal

/-- Moves the draft into place. -/
def publish (path draft : String) : FilePlan (Except Fault Unit) :=
  .ask (.rename draft path) fun
    | .ok () => .done (.ok ())
    | .error refusal => abandon draft path refusal

/-- Writes the bytes to the draft, in as many pieces as it takes, and publishes it.  Every piece
has at least one byte, so as many units of fuel as there are bytes suffice. -/
def write (path draft : String) : (fuel : Nat) → List UInt8 → FilePlan (Except Fault Unit)
  | _, [] =>
    .ask (.sync draft) fun
      | .ok () => publish path draft
      | .error refusal => abandon draft draft refusal
  | 0, _ => abandon draft draft .nothingWritten
  | fuel + 1, bytes =>
    .ask (.append draft bytes) fun
      | .ok 0 => abandon draft draft .nothingWritten
      | .ok (count + 1) => write path draft fuel (bytes.drop (count + 1))
      | .error refusal => abandon draft draft refusal

/-- Makes the draft, writes it and publishes it. -/
def writeDraft (path draft : String) (bytes : List UInt8) : FilePlan (Except Fault Unit) :=
  .ask (.create draft) fun
    | .ok () => write path draft bytes.length bytes
    | .error refusal => abandon draft draft refusal

/-- Saves a memory, in directories that are made where they are missing. -/
def save (path : String) (process : Nat) (memory : Memory) : FilePlan (Except Fault Unit) :=
  let writing := writeDraft path (draftPath path process) (encode memory)
  match Path.parent? path with
  | some directory => climb directory writing [] (Path.climb directory)
  | none => writing

/-! ### Forgetting -/

/-- Removes the file; tells whether there was one. -/
def clear (path : String) : FilePlan (Except Fault Bool) :=
  .ask (.remove path) fun
    | .ok () => .done (.ok true)
    | .error .notFound => .done (.ok false)
    | .error refusal => .done (.error (.write path refusal))

end ServiceWatch.Store
