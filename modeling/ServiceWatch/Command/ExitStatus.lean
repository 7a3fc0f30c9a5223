/-!
# How a program ended

The operating system tells how a program ended by one word, the wait status.  Its low seven bits
are zero for a program that exited, and then the second byte is its exit code.  They are a signal
for a program that was killed, where the eighth bit tells of a memory image; all ones stand for a
program that has only been stopped or continued.

A word that says none of this is given as it is: in decimal as a number with a sign, in
hexadecimal as plain bits.
-/

namespace ServiceWatch.Command

/-- How a program ended. -/
inductive ExitStatus where
  | exited (code : Nat)
  | killed (signal : Nat) (hasImage : Bool)
  | stopped (signal : Nat)
  | continued
  | unrecognised (status : UInt32)
deriving DecidableEq, Repr, Inhabited

namespace ExitStatus

/-- What a wait status says. -/
def ofWaitStatus (status : UInt32) : ExitStatus :=
  let bits := status.toNat
  let low := bits % 128
  let high := bits / 256 % 256
  if low = 0 then .exited high
  else if low ≠ 127 then .killed low (bits / 128 % 2 = 1)
  else if bits % 256 = 127 then .stopped high
  else if bits = 0xFFFF then .continued
  else .unrecognised status

/-- Whether the program says that it succeeded. -/
def isSuccess (status : ExitStatus) : Bool :=
  status = .exited 0

/-- The names of the signals from one on. -/
def signalNames : List String :=
  ["SIGHUP", "SIGINT", "SIGQUIT", "SIGILL", "SIGTRAP", "SIGABRT", "SIGBUS", "SIGFPE", "SIGKILL",
    "SIGUSR1", "SIGSEGV", "SIGUSR2", "SIGPIPE", "SIGALRM", "SIGTERM", "SIGSTKFLT", "SIGCHLD",
    "SIGCONT", "SIGSTOP", "SIGTSTP", "SIGTTIN", "SIGTTOU", "SIGURG", "SIGXCPU", "SIGXFSZ",
    "SIGVTALRM", "SIGPROF", "SIGWINCH", "SIGIO", "SIGPWR", "SIGSYS"]

/-- A signal by its number, and by its name if it has one. -/
def signalText (signal : Nat) : String :=
  if signal = 0 then toString signal
  else
    match signalNames[signal - 1]? with
    | some name => toString signal ++ " (" ++ name ++ ")"
    | none => toString signal

/-- The text of how a program ended. -/
def text : ExitStatus → String
  | .exited code => "exit status: " ++ toString code
  | .killed signal hasImage =>
    "signal: " ++ signalText signal ++ (if hasImage then " (core dumped)" else "")
  | .stopped signal => "stopped (not terminated) by signal: " ++ signalText signal
  | .continued => "continued (WIFCONTINUED)"
  | .unrecognised status =>
    "unrecognised wait status: " ++ toString status.toInt32.toInt ++ " 0x" ++
      String.ofList (Nat.toDigits 16 status.toNat)

end ExitStatus

end ServiceWatch.Command
