import ServiceWatch.Command.Basic
import ServiceWatch.Text.Blank
import ServiceWatch.Text.Utf8

/-!
# Whether the service runs

The process manager names the state of a service by a word.  The word `active` alone means that
the service runs; an answer without a word leaves the state unknown, and so does a process manager
that could not be asked.
-/

namespace ServiceWatch

/-- The state of the watched service. -/
inductive ServiceState where
  | active
  /-- Any other state, by the word for it. -/
  | inactive (word : String)
  /-- The process manager gave no word. -/
  | unknown
  /-- The process manager could not be run, or gave no answer in time. -/
  | queryFailed (program reason : String)
deriving DecidableEq, Repr, Inhabited

namespace ServiceState

/-- The state that the process manager's answer means. -/
def ofAnswer (answer : String) : ServiceState :=
  let word := Text.trim answer
  if word = "active" then .active
  else if word = "" then .unknown
  else .inactive word

/-- The command that asks a process manager for the state of a service. -/
def question (manager service : String) : Command :=
  ⟨manager, ["is-active", service]⟩

/-- The state that the outcome of the question means.  Only what the process manager wrote counts,
not how it ended. -/
def ofOutcome (manager : String) (timeout : Duration) : Command.Outcome → ServiceState
  | .ended _ output => ofAnswer (String.ofList (Text.Utf8.decodeLossy output))
  | .refused refusal => .queryFailed manager refusal.message
  | .timedOut => .queryFailed manager (Command.lateness timeout)

/-- Whether the service runs. -/
def isActive : ServiceState → Bool
  | .active => true
  | _ => false

/-- The word for the state in a report line. -/
def word : ServiceState → String
  | .active => "active"
  | .inactive word => word
  | .unknown => "unknown"
  | .queryFailed .. => "unknown"

end ServiceState

end ServiceWatch
