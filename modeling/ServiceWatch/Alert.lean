import ServiceWatch.Command.Basic
import ServiceWatch.Report

/-!
# Alerts

A report that is not healthy is passed on to an alert command, with a title and with the lines of
the report.  Whether the command succeeds changes nothing in the report.
-/

namespace ServiceWatch.Alert

/-- The title and the body of the alert for a report; a healthy report needs none. -/
def message? (title : String) (report : Report) : Option (String × String) :=
  if report.isHealthy then none else some (title, report.alertBody)

/-- Why an alert was not delivered. -/
inductive Fault where
  | notRun (program reason : String)
  | ended (status : Command.ExitStatus)
  | timedOut (timeout : Duration)
deriving DecidableEq, Repr, Inhabited

/-- The text of a fault. -/
def Fault.message : Fault → String
  | .notRun program reason => "failed to run alert command " ++ program ++ ": " ++ reason
  | .ended status => "alert command exited with " ++ status.text
  | .timedOut timeout => "alert command " ++ Command.lateness timeout

/-- The command that delivers an alert. -/
def command (program title body : String) : Command :=
  ⟨program, [title, body]⟩

/-- Whether an alert was delivered, by the outcome of its command. -/
def ofOutcome (program : String) (timeout : Duration) : Command.Outcome → Except Fault Unit
  | .ended status _ => if status.isSuccess then .ok () else .error (.ended status)
  | .refused refusal => .error (.notRun program refusal.message)
  | .timedOut => .error (.timedOut timeout)

end ServiceWatch.Alert
