import ServiceWatch.Endpoint

/-!
# Reports

A report lists what a run of the probe found wrong: outages, for which the service counts as down,
and concerns, which degrade the service or the probe's view of it.  Its severity is that of its
gravest entry, and decides the exit code.  Its lines are one for each entry, outages first; the
body of an alert has the same lines in two headed sections.
-/

namespace ServiceWatch

/-- A condition that makes the service count as down. -/
inductive Outage where
  /-- The process manager could not be asked. -/
  | processQuery (program reason : String)
  /-- The service does not run. -/
  | serviceInactive (service state : String)
  /-- The health endpoint did not answer as it should. -/
  | healthEndpoint (failure : EndpointFailure)
  /-- The metrics endpoint did not answer as it should. -/
  | metricsEndpoint (failure : EndpointFailure)
deriving DecidableEq, Repr, Inhabited

/-- A condition that degrades the service or the probe's view of it. -/
inductive Concern where
  /-- A required series is not in the scrape. -/
  | missingSeries (series : String)
  /-- A counter has not risen for too long, in seconds. -/
  | stalled (counter : String) (elapsed : UInt64)
  /-- What the last run remembered could not be read. -/
  | memoryUnreadable (reason : String)
  /-- What this run has to remember could not be written. -/
  | memoryNotSaved (reason : String)
deriving DecidableEq, Repr, Inhabited

/-- The line for an outage. -/
def Outage.line : Outage → String
  | .processQuery program reason => program ++ " failed: " ++ reason
  | .serviceInactive service state => "service " ++ service ++ " not active (state=" ++ state ++ ")"
  | .healthEndpoint failure => "healthz failed " ++ failure.describe
  | .metricsEndpoint failure => "metrics failed " ++ failure.describe

/-- The line for a concern. -/
def Concern.line : Concern → String
  | .missingSeries series => "metrics missing " ++ series
  | .stalled counter elapsed =>
    counter ++ " stalled (" ++ toString (elapsed.toNat / 60) ++ "m without increment)"
  | .memoryUnreadable reason => "failed to read state: " ++ reason
  | .memoryNotSaved reason => "failed to write state: " ++ reason

/-- How grave a report is. -/
inductive Severity where
  | ok
  | warning
  | error
deriving DecidableEq, Repr, Inhabited

namespace Severity

/-- The exit code of a run with this severity; graver severities have greater codes. -/
def exitCode : Severity → Nat
  | .ok => 0
  | .warning => 1
  | .error => 2

/-- The severity in capital letters. -/
def label : Severity → String
  | .ok => "OK"
  | .warning => "WARNING"
  | .error => "ERROR"

/-- The order of severities, the least grave first. -/
def order (a b : Severity) : Ordering :=
  compare a.exitCode b.exitCode

/-- The graver of two severities. -/
def graver (a b : Severity) : Severity :=
  if a.exitCode ≤ b.exitCode then b else a

end Severity

/-- What a run found wrong, in the order of finding. -/
structure Report where
  outages : List Outage := []
  concerns : List Concern := []
deriving DecidableEq, Repr, Inhabited

namespace Report

/-- The gravest entry decides. -/
def severity (report : Report) : Severity :=
  if !report.outages.isEmpty then .error
  else if !report.concerns.isEmpty then .warning
  else .ok

/-- The exit code of the run. -/
def exitCode (report : Report) : Nat :=
  report.severity.exitCode

/-- Whether nothing was found wrong. -/
def isHealthy (report : Report) : Bool :=
  report.severity = .ok

/-- The lines for the outages. -/
def outageLines (report : Report) : List String :=
  report.outages.map Outage.line

/-- The lines for the concerns. -/
def concernLines (report : Report) : List String :=
  report.concerns.map Concern.line

/-- The line for each entry. -/
def lines (report : Report) : List String :=
  report.outageLines ++ report.concernLines

/-- A section of an alert: its heading and its lines, or nothing when it has no lines. -/
def section? (heading : String) (lines : List String) : List String :=
  if lines.isEmpty then [] else [heading ++ "\n" ++ "\n".intercalate lines]

/-- The body of an alert: the sections that have lines, with a blank line between them. -/
def alertBody (report : Report) : String :=
  "\n\n".intercalate
    (section? "Errors:" report.outageLines ++ section? "Warnings:" report.concernLines)

end Report

end ServiceWatch
