/-!
# Refusals of the operating system

Files, other programs and the network can each refuse a request.  A refusal has a number and a
text; a few are made before the operating system is asked and have a text only.
-/

namespace ServiceWatch

/-- Why a request was refused. -/
inductive SystemError where
  | notFound
  | argumentsTooLong
  | badProgram
  | permissionDenied
  | busy
  | alreadyExists
  | notDirectory
  | isDirectory
  | nameTooLong
  | networkUnreachable
  | connectionRefused
  /-- Any other refusal, by its number and text. -/
  | other (code : Nat) (text : String)
  /-- A path that holds the null character names nothing. -/
  | nulInPath
  /-- A program cannot be given an argument that holds the null character. -/
  | nulInArgument
  /-- A write that put nothing into its file. -/
  | nothingWritten
deriving DecidableEq, Repr, Inhabited

namespace SystemError

/-- The refusal with this number; the text is that of a number with no name here. -/
def ofNumber (code : Nat) (text : String) : SystemError :=
  match code with
  | 2 => .notFound
  | 7 => .argumentsTooLong
  | 8 => .badProgram
  | 13 => .permissionDenied
  | 16 => .busy
  | 17 => .alreadyExists
  | 20 => .notDirectory
  | 21 => .isDirectory
  | 36 => .nameTooLong
  | 101 => .networkUnreachable
  | 111 => .connectionRefused
  | code => .other code text

/-- The text of a numbered refusal. -/
def numbered (text : String) (code : Nat) : String :=
  text ++ " (os error " ++ toString code ++ ")"

/-- The text of a refusal. -/
def message : SystemError → String
  | .notFound => numbered "No such file or directory" 2
  | .argumentsTooLong => numbered "Argument list too long" 7
  | .badProgram => numbered "Exec format error" 8
  | .permissionDenied => numbered "Permission denied" 13
  | .busy => numbered "Device or resource busy" 16
  | .alreadyExists => numbered "File exists" 17
  | .notDirectory => numbered "Not a directory" 20
  | .isDirectory => numbered "Is a directory" 21
  | .nameTooLong => numbered "File name too long" 36
  | .networkUnreachable => numbered "Network is unreachable" 101
  | .connectionRefused => numbered "Connection refused" 111
  | .other code text => numbered text code
  | .nulInPath => "file name contained an unexpected NUL byte"
  | .nulInArgument => "nul byte found in provided data"
  | .nothingWritten => "failed to write whole buffer"

end SystemError

end ServiceWatch
