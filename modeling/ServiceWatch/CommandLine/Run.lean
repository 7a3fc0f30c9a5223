import ServiceWatch.Alert
import ServiceWatch.CommandLine.Arguments
import ServiceWatch.CommandLine.Usage
import ServiceWatch.Http.Exchange
import ServiceWatch.Probe.Json
import ServiceWatch.Settings.File

/-!
# Running the program

The program reads its command line, resolves its settings and does what it is told: it runs the
probe, shows what is remembered or forgets it.  All it does with its surroundings is asked for by
the plan `run`, which ends with an exit code and what is to be written.
-/

namespace ServiceWatch.CommandLine

/-- What the program asks its surroundings. -/
inductive Request where
  | file (action : Disk.Action)
  /-- Runs another program for so long at most. -/
  | command (command : Command) (timeout : Duration)
  /-- Makes a call over the network that takes so long at most. -/
  | call (call : Http.Call) (timeout : Duration)
  /-- Asks for the time, in seconds. -/
  | now

/-- What a request is replied. -/
def Request.Reply : Request → Type
  | .file action => action.Reply
  | .command .. => Command.Outcome
  | .call .. => Http.Exchange
  | .now => UInt64

/-- The surroundings of the program. -/
def system : Interface := ⟨Request, Request.Reply⟩

/-- Asks the surroundings of the program. -/
def ask (request : Request) : Plan system request.Reply :=
  .ask (I := system) request .done

/-- How the program ends. -/
inductive Ending where
  /-- With what it wrote. -/
  | finished (code : Nat) (output : String)
  /-- With an error and its causes, each inside the one before it. -/
  | failed (messages : List String)
  | misused
  /-- With help, which is an error when nobody asked for it. -/
  | helped (isWanted : Bool)
deriving DecidableEq, Repr, Inhabited

namespace Ending

/-- The exit code. -/
def exitCode : Ending → Nat
  | .finished code _ => code
  | .failed _ => 2
  | .misused => 2
  | .helped isWanted => if isWanted then 0 else 2

/-- What is written to the standard output. -/
def output : Ending → String
  | .finished _ output => output
  | .helped true => usage
  | _ => ""

/-- The error that is written to the standard error, if there is one. -/
def complaint? : Ending → Option String
  | .failed messages => some ("vigil: " ++ ": ".intercalate messages ++ "\n")
  | _ => none

/-- What is written to the standard error. -/
def errorOutput : Ending → String
  | .misused => "error: the arguments are refused\n\n" ++ usage
  | .helped false => usage
  | ending => ending.complaint?.getD ""

end Ending

/-- The version of the program. -/
def programVersion : String := "0.1.0"

/-- How the program ends when the command line gives it nothing to do. -/
def Stop.ending : Stop → Ending
  | .misuse => .misused
  | .version place => .finished 0 (place.title ++ " " ++ programVersion ++ "\n")
  | .help => .helped true
  | .noCommand => .helped false

/-! ### Settings -/

/-- The messages of a fault of the settings. -/
def settingsMessages : Settings.Fault → List String
  | .defective defect => ["probe configuration", (Settings.Fault.defective defect).message]
  | fault => fault.message :: fault.causes

/-- The layer of the settings file, if one is named. -/
def fileLayer : Option String → Plan system (Except Settings.Fault Settings.Layer)
  | none => .done (.ok {})
  | some path =>
    .ask (I := system) (.file (.read path)) fun reply => .done (Settings.ofContent path reply)

/-! ### The probe -/

/-- The program that is asked for the state of the service. -/
def manager : String := "systemctl"

/-- How a request of the probe is met. -/
def meet (timeout : Duration) : (request : Probe.Request) → Plan system request.Reply
  | .state service => do
    let outcome ← ask (.command (ServiceState.question manager service) timeout)
    return ServiceState.ofOutcome manager timeout outcome
  | .answer url token =>
    match Http.call url token with
    | .error fault => .done (Answer.unreachable fault.message)
    | .ok call => do
      let exchange ← ask (.call call timeout)
      return call.conclude timeout exchange
  | .file action => ask (.file action)

/-- What is written about a run. -/
def written (form : Form) (outcome : Probe.Outcome) : String :=
  match form with
  | .text => String.join (outcome.report.lines.map (· ++ "\n"))
  | .json => String.ofList outcome.pretty ++ "\n"

/-- Passes a report on to the alert command, if there is anything to tell.  What becomes of that
does not matter. -/
def sendAlert (settings : Settings) (timeout : Duration) (report : Report) : Plan system Unit :=
  match Alert.message? settings.alertTitle report with
  | none => .done ()
  | some (title, body) => do
    let _ ← ask (.command (Alert.command settings.alertCommand title body) timeout)
    return ()

/-- Runs the probe and writes about it. -/
def check (settings : Settings) (process : Nat) (form : Form) (sendsAlert : Bool) :
    Plan system Ending := do
  let timeout := Duration.ofSeconds settings.timeoutSeconds.toNat
  let now ← ask .now
  let outcome ← (Probe.run settings process now).refine (J := system) (meet timeout)
  if sendsAlert then sendAlert settings timeout outcome.report
  return .finished outcome.report.exitCode (written form outcome)

/-! ### The memory -/

/-- The plan with its actions on files among the requests of the program. -/
def onFiles {α : Type} (plan : Store.FilePlan α) : Plan system α :=
  plan.refine (J := system) fun action => ask (.file action)

/-- The messages of a fault of the memory's file. -/
def storeMessages (fault : Store.Fault) : List String :=
  fault.message :: fault.causes

/-- Tells that there is nothing to remember. -/
def nothingAt (path : String) : String :=
  "no state recorded at " ++ path ++ "\n"

/-- Shows what is remembered. -/
def showMemory (settings : Settings) : Plan system Ending := do
  match ← onFiles (Store.read settings.statePath) with
  | .ok (some memory) => return .finished 0 (String.ofList memory.pretty ++ "\n")
  | .ok none => return .finished 0 (nothingAt settings.statePath)
  | .error fault => return .failed (storeMessages fault)

/-- Forgets what is remembered. -/
def resetMemory (settings : Settings) : Plan system Ending := do
  match ← onFiles (Store.clear settings.statePath) with
  | .ok true => return .finished 0 ("✓ Removed " ++ settings.statePath ++ "\n")
  | .ok false => return .finished 0 (nothingAt settings.statePath)
  | .error fault => return .failed (storeMessages fault)

/-! ### The whole program -/

/-- Does what is told with these settings. -/
def obey (settings : Settings) (process : Nat) : Order → Plan system Ending
  | .check form sendsAlert => check settings process form sendsAlert
  | .showMemory => showMemory settings
  | .resetMemory => resetMemory settings

/-- Runs the program as the process with this number. -/
def run (process : Nat) (arguments : List String) (environment : String → Option String) :
    Plan system Ending :=
  match read arguments environment with
  | .error stop => .done stop.ending
  | .ok wish => do
    match ← fileLayer wish.settingsFile with
    | .error fault => return .failed (settingsMessages fault)
    | .ok layer =>
      match Settings.resolve wish.layer layer with
      | .error fault => return .failed (settingsMessages fault)
      | .ok settings => obey settings process wish.order

end ServiceWatch.CommandLine
