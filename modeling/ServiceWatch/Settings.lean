import ServiceWatch.Path
import ServiceWatch.Stall
import ServiceWatch.Text.Blank
import ServiceWatch.Text.Quoted

/-!
# Settings

The settings of a run have a default for each field.  A settings file and the command line each
give a `Layer`, in which every field may be absent; `Layer.over` lays one over complete settings,
field by field.  Settings are checked once all layers are in place, so a value that only the check
would refuse does no harm under a layer that replaces it.
-/

namespace ServiceWatch

/-- The settings of a run. -/
structure Settings where
  service : String
  healthUrl : String
  metricsUrl : String
  /-- The token that is sent to the health endpoint; an empty one is none. -/
  authToken : Option String
  statePath : String
  /-- How many minutes the watched counter may stand still. -/
  stallMinutes : UInt64
  alertCommand : String
  alertTitle : String
  /-- How long each check and the alert may take, in seconds. -/
  timeoutSeconds : UInt64
deriving DecidableEq, Repr

namespace Settings

/-- The settings where nothing else is said. -/
def defaults : Settings where
  service := "powerhouse-boot"
  healthUrl := "http://127.0.0.1:8181/healthz"
  metricsUrl := "http://127.0.0.1:9100/metrics"
  authToken := none
  statePath := "/var/lib/vigil/health_state.json"
  stallMinutes := 20
  alertCommand := "/usr/local/lib/vigil/alert.sh"
  alertTitle := "vigil healthcheck"
  timeoutSeconds := 5

/-- The token to send, if there is one. -/
def token? (settings : Settings) : Option String :=
  settings.authToken.filter fun token => token ≠ ""

/-- How long the watched counter may stand still, in seconds. -/
def stallThreshold (settings : Settings) : UInt64 :=
  Stall.thresholdOfMinutes settings.stallMinutes

/-- Whether two settings are the same; two texts of one path are the same path. -/
def isSame (a b : Settings) : Bool :=
  Path.isSame a.statePath b.statePath && Path.isSame a.alertCommand b.alertCommand &&
    { a with statePath := "", alertCommand := "" } = { b with statePath := "", alertCommand := "" }

/-- What one source says about the settings. -/
structure Layer where
  service : Option String := none
  healthUrl : Option String := none
  metricsUrl : Option String := none
  authToken : Option String := none
  statePath : Option String := none
  stallMinutes : Option UInt64 := none
  alertCommand : Option String := none
  alertTitle : Option String := none
  timeoutSeconds : Option UInt64 := none
deriving DecidableEq, Repr, Inhabited

/-- The settings with what the layer says in place of what they said. -/
def Layer.over (layer : Layer) (settings : Settings) : Settings where
  service := layer.service.getD settings.service
  healthUrl := layer.healthUrl.getD settings.healthUrl
  metricsUrl := layer.metricsUrl.getD settings.metricsUrl
  authToken := layer.authToken.or settings.authToken
  statePath := layer.statePath.getD settings.statePath
  stallMinutes := layer.stallMinutes.getD settings.stallMinutes
  alertCommand := layer.alertCommand.getD settings.alertCommand
  alertTitle := layer.alertTitle.getD settings.alertTitle
  timeoutSeconds := layer.timeoutSeconds.getD settings.timeoutSeconds

/-- Why the probe cannot run with some settings. -/
inductive Defect where
  | blankService
  /-- The URL with this name does not begin with `http://`. -/
  | notHttp (name url : String)
  | noTimeout
deriving DecidableEq, Repr, Inhabited

/-- The text of a defect. -/
def Defect.message : Defect → String
  | .blankService => "service name is empty"
  | .notHttp name url => name ++ " must be an http:// URL, got " ++ Text.quoted url
  | .noTimeout => "timeout_secs must be > 0"

/-- Whether a URL begins as it has to. -/
def isHttp (url : String) : Bool :=
  "http://".toList.isPrefixOf url.toList

/-- The first defect of the settings, if they have one. -/
def defect? (settings : Settings) : Option Defect :=
  if Text.isBlankText settings.service then some .blankService
  else if !isHttp settings.healthUrl then some (.notHttp "health_url" settings.healthUrl)
  else if !isHttp settings.metricsUrl then some (.notHttp "metrics_url" settings.metricsUrl)
  else if settings.timeoutSeconds = 0 then some .noTimeout
  else none

/-- How a setting is written in a settings file, and where its value goes. -/
inductive Form where
  /-- A text, called `expected` in a fault. -/
  | text (expected : String) (set : Layer → String → Layer)
  /-- A text, or nothing where the format has a way to write that. -/
  | optionalText (set : Layer → Option String → Layer)
  /-- A natural number. -/
  | count (set : Layer → UInt64 → Layer)

/-- The settings of a settings file by name, in the order in which they are written. -/
def forms : List (String × Form) :=
  [("service", .text "a string" fun layer value => { layer with service := value }),
    ("health_url", .text "a string" fun layer value => { layer with healthUrl := value }),
    ("metrics_url", .text "a string" fun layer value => { layer with metricsUrl := value }),
    ("auth_token", .optionalText fun layer value => { layer with authToken := value }),
    ("state_path", .text "path string" fun layer value => { layer with statePath := value }),
    ("stall_minutes", .count fun layer value => { layer with stallMinutes := value }),
    ("alert_command", .text "path string" fun layer value => { layer with alertCommand := value }),
    ("alert_title", .text "a string" fun layer value => { layer with alertTitle := value }),
    ("timeout_secs", .count fun layer value => { layer with timeoutSeconds := value })]

end Settings

end ServiceWatch
