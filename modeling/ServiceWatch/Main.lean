import ServiceWatch.CommandLine.Run
import Std.Time.DateTime.Timestamp

/-!
# The program on a machine

Meets the requests of the program with the files and the clock of the machine it runs on.  Nothing
is decided here: the plan `CommandLine.run` says what is asked for and what becomes of the reply.
This build starts no other programs and has no network, so a request for either is refused the way
an operating system without them refuses it.
-/

namespace ServiceWatch.Main

/-- The number of an error, which may come negated. -/
def errorNumber (code : UInt32) : Nat :=
  if code < 0x80000000 then code.toNat else (0 - code).toNat

/-- The refusal that an error of the machine stands for. -/
def refusalOf : IO.Error → SystemError
  | .alreadyExists _ code text | .noFileOrDirectory _ code text | .invalidArgument _ code text
  | .permissionDenied _ code text | .resourceExhausted _ code text
  | .inappropriateType _ code text | .noSuchThing _ code text | .interrupted _ code text
  | .otherError code text | .resourceBusy code text | .resourceVanished code text
  | .unsupportedOperation code text | .hardwareFault code text
  | .unsatisfiedConstraints code text | .illegalOperation code text | .protocolError code text
  | .timeExpired code text => .ofNumber (errorNumber code) text
  | .unexpectedEof | .userError _ => .other 5 "Input/output error"

/-- The result of an action on a path, or the refusal of the machine. -/
def attempt {α : Type} (path : String) (action : IO α) : IO (Except SystemError α) := do
  if path.toList.contains (Char.ofNat 0) then return .error .nulInPath
  try return .ok (← action) catch error => return .error (refusalOf error)

/-- Whether there is a directory at a path. -/
def isDirectory (path : String) : IO Bool := do
  try return ← (← IO.FS.realPath path).isDir catch _ => return false

/-- Writes at the end of a file. -/
def append (path : String) (bytes : List UInt8) : IO Nat := do
  let file ← IO.FS.Handle.mk path .append
  file.write ⟨bytes.toArray⟩
  file.flush
  return bytes.length

/-- Removes a file that is no directory. -/
def remove (path : String) : IO (Except SystemError Unit) := do
  if ← isDirectory path then return .error .isDirectory
  attempt path (IO.FS.removeFile path)

/-- Acts on the files of the machine. -/
def act : (action : Disk.Action) → IO action.Reply
  | .read path => attempt path do return (← IO.FS.readBinFile path).toList
  | .makeDirectory path => attempt path (IO.FS.createDir path)
  | .isDirectory path => isDirectory path
  | .create path => attempt path do
    let _ ← IO.FS.Handle.mk path .write
    return ()
  | .append path bytes => attempt path (append path bytes)
  | .sync _ => return .ok ()
  | .rename source target => attempt source (IO.FS.rename source target)
  | .remove path => remove path

/-- Meets a request of the program. -/
def meet : (request : CommandLine.Request) → IO request.Reply
  | .file action => act action
  | .command .. => return .refused (.other 38 "Function not implemented")
  | .call .. => return .refused .networkUnreachable
  | .now => return UInt64.ofNat (← Std.Time.Timestamp.now).toSecondsSinceUnixEpoch.toInt.toNat

/-- The number of the running process, with which the line about it begins. -/
def processNumber : IO Nat := do
  let status ← IO.FS.readFile "/proc/self/stat"
  return (status.toList.takeWhile Char.isDigit).foldl (fun n c => n * 10 + (c.toNat - 48)) 0

/-- The values of the variables that may give a setting. -/
def environmentValues : IO (List (String × String)) := do
  let values ← CommandLine.variableNames.mapM fun name => do return (name, ← IO.getEnv name)
  return values.filterMap fun (name, value) => value.map fun value => (name, value)

end ServiceWatch.Main

/-- Runs the program. -/
def main (arguments : List String) : IO UInt32 := do
  let process ← ServiceWatch.Main.processNumber
  let values ← ServiceWatch.Main.environmentValues
  let plan := ServiceWatch.CommandLine.run process arguments fun name => values.lookup name
  let ending ← plan.run ServiceWatch.Main.meet
  IO.print ending.output
  IO.eprint ending.errorOutput
  return UInt32.ofNat ending.exitCode
