import ServiceWatch.Command.ExitStatus
import ServiceWatch.Duration
import ServiceWatch.SystemError

/-!
# Running other programs

The process manager and the alert command are programs of their own.  A command names a program and
its arguments; its outcome is that it could not be run, that it ended, or that it was still running
when its time was up.
-/

namespace ServiceWatch

/-- A program to run and what to give it. -/
structure Command where
  program : String
  arguments : List String
deriving DecidableEq, Repr, Inhabited

namespace Command

/-- What came of running a command. -/
inductive Outcome where
  | refused (refusal : SystemError)
  /-- The program ended and had written this. -/
  | ended (status : ExitStatus) (output : List UInt8)
  | timedOut
deriving DecidableEq, Repr, Inhabited

/-- The reason to give when a program took longer than its time. -/
def lateness (timeout : Duration) : String :=
  "timed out after " ++ timeout.text

end Command

end ServiceWatch
