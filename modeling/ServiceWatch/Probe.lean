import ServiceWatch.Findings
import ServiceWatch.Metrics.Exposition
import ServiceWatch.Settings
import ServiceWatch.Store

/-!
# One run of the probe

A run asks for the state of the service, for the health endpoint and for the metrics endpoint, in
this order and whatever the answers are.  Then it reads what the run before it remembered, judges
the watched counter, and writes what is to be remembered next if there was something to judge.
The report is made from all of these.
-/

namespace ServiceWatch.Probe

/-- What a run asks its surroundings. -/
inductive Request where
  /-- Asks the process manager for the state of a service. -/
  | state (service : String)
  /-- Asks an endpoint, with a token or without. -/
  | answer (url : String) (token : Option String)
  | file (action : Disk.Action)
deriving DecidableEq, Repr, Inhabited

/-- What a request is replied. -/
def Request.Reply : Request → Type
  | .state _ => ServiceState
  | .answer .. => Answer
  | .file action => action.Reply

/-- The surroundings of a run. -/
def surroundings : Interface := ⟨Request, Request.Reply⟩

/-- The plan with its actions on files among the requests of a run. -/
def onFiles {α : Type} (plan : Store.FilePlan α) : Plan surroundings α :=
  plan.refine fun action => .request (I := surroundings) (.file action)

/-- What a run ends with. -/
structure Outcome where
  report : Report
  verdict : Stall.Verdict
  /-- Whether the memory was written. -/
  isSaved : Bool
deriving DecidableEq, Repr, Inhabited

/-- What is known about the memory and the counter at the end of a run. -/
structure Watch where
  verdict : Stall.Verdict
  isSaved : Bool
  concerns : List Concern
deriving DecidableEq, Repr, Inhabited

/-- The series that a scrape has to hold and does not; without a scrape nothing is missing. -/
def missing (scrape : Option Scrape) : List String :=
  match scrape with
  | some scrape => scrape.missing requiredSeries
  | none => []

/-- What is known when the memory was left as it is, or when there was an attempt to write it. -/
def Watch.conclude (verdict : Stall.Verdict) (loaded : Store.Loaded) :
    Option (Except Store.Fault Unit) → Watch
  | none => ⟨verdict, false, loaded.concern.toList⟩
  | some (.ok ()) => ⟨verdict, true, loaded.concern.toList⟩
  | some (.error fault) =>
    ⟨verdict, false, loaded.concern.toList ++ [.memoryNotSaved fault.message]⟩

/-- Judges the scrape by the memory in a file, and writes what is to be remembered next. -/
def watch (path : String) (threshold : UInt64) (process : Nat) (scrape : Option Scrape)
    (now : UInt64) : Store.FilePlan Watch := do
  let loaded ← Store.load path
  let judgement := Stall.judge threshold scrape loaded.memory now
  match judgement.next with
  | none => return .conclude judgement.verdict loaded none
  | some next => do
    let saved ← Store.save path process next
    return .conclude judgement.verdict loaded (some saved)

/-- The outcome of a run from the answers and from what is known about the memory. -/
def conclude (service : String) (state : ServiceState) (health metrics : Answer)
    (scrape : Option Scrape) (watched : Watch) : Outcome where
  report :=
    Findings.report
      { service := service
        state := state
        health := health
        metrics := metrics
        missing := missing scrape
        stall := watched.verdict
        memoryConcerns := watched.concerns }
  verdict := watched.verdict
  isSaved := watched.isSaved

/-- Runs the probe at the time `now`, as the process with this number. -/
def run (settings : Settings) (process : Nat) (now : UInt64) : Plan surroundings Outcome := do
  let state ← Plan.request (I := surroundings) (.state settings.service)
  let health ← Plan.request (I := surroundings) (.answer settings.healthUrl settings.token?)
  let metrics ← Plan.request (I := surroundings) (.answer settings.metricsUrl none)
  let scrape := metrics.body?.map Scrape.ofText
  let watched ← onFiles (watch settings.statePath settings.stallThreshold process scrape now)
  return conclude settings.service state health metrics scrape watched

end ServiceWatch.Probe
