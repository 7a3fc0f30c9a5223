import ServiceWatch.Report
import ServiceWatch.ServiceState
import ServiceWatch.Stall

/-!
# From findings to a report

The findings of a run are what its checks answered.  The report takes from them, in this order:
the outages of the process manager, of the service, of the health and of the metrics endpoint; then
the concerns about missing series, a stalled counter and the memory.
-/

namespace ServiceWatch

/-- What the checks of one run answered. -/
structure Findings where
  service : String
  state : ServiceState
  health : Answer
  metrics : Answer
  /-- The required series that the scrape lacks. -/
  missing : List String
  stall : Stall.Verdict
  /-- The concerns about reading and writing the memory. -/
  memoryConcerns : List Concern
deriving DecidableEq, Repr, Inhabited

namespace Findings

/-- The outages of the process manager and of the service itself. -/
def serviceOutages (findings : Findings) : List Outage :=
  (match findings.state with
    | .queryFailed program reason => [.processQuery program reason]
    | _ => []) ++
  if findings.state.isActive then []
  else [.serviceInactive findings.service findings.state.word]

/-- The outages of the two endpoints. -/
def endpointOutages (findings : Findings) : List Outage :=
  (findings.health.failure?.map .healthEndpoint).toList ++
    (findings.metrics.failure?.map .metricsEndpoint).toList

/-- The concerns about series that are missing; without a scrape there is nothing to miss. -/
def seriesConcerns (findings : Findings) : List Concern :=
  if findings.metrics.failure?.isSome then [] else findings.missing.map .missingSeries

/-- The concern about a stalled counter. -/
def stallConcerns (findings : Findings) : List Concern :=
  match findings.stall with
  | .stalled elapsed => [.stalled finalitySeries elapsed]
  | _ => []

/-- The report on the findings. -/
def report (findings : Findings) : Report where
  outages := findings.serviceOutages ++ findings.endpointOutages
  concerns := findings.seriesConcerns ++ findings.stallConcerns ++ findings.memoryConcerns

end Findings

end ServiceWatch
