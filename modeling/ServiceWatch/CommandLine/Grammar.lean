import ServiceWatch.Settings

/-!
# The options of the command line

The command line names a command, `check` where none is named, and gives options.  Most options are
settings: they may stand behind the program's name or behind a command, and each may be given by a
variable of the environment instead.

`valuedAt` and `flagsAt` list what may be given where.  A valued option says how its text changes
the choices, or that the text is refused.
-/

namespace ServiceWatch.CommandLine

/-- Where an argument stands: behind the program's name, or behind a command. -/
inductive Place where
  | program
  | check
  | memory
  | memoryShow
  | memoryReset
deriving DecidableEq, Repr, Inhabited

namespace Place

/-- The commands that may stand here, by name. -/
def commands : Place → List (String × Place)
  | .program => [("check", .check), ("state", .memory)]
  | .memory => [("show", .memoryShow), ("reset", .memoryReset)]
  | _ => []

/-- The name of the place where the version is told. -/
def title : Place → String
  | .program => "vigil"
  | .check => "vigil-check"
  | .memory => "vigil-state"
  | .memoryShow => "vigil-state-show"
  | .memoryReset => "vigil-state-reset"

end Place

/-- How a report is written. -/
inductive Form where
  | text
  | json
deriving DecidableEq, Repr, Inhabited

/-- What the options choose. -/
structure Choices where
  /-- The path of the settings file. -/
  settingsFile : Option String := none
  layer : Settings.Layer := {}
  form : Form := .text
deriving DecidableEq, Repr, Inhabited

/-- An option that has a value. -/
structure Valued where
  name : String
  letter : Option Char := none
  /-- The variable of the environment that may give the value instead. -/
  environment : Option String := none
  /-- The choices with this value; `none` when the value is refused. -/
  set : Choices → String → Option Choices

/-- An option without a value. -/
inductive Flag where
  | verbose
  | noAlert
  | version
  | help
deriving DecidableEq, Repr, Inhabited

/-! ### Values -/

/-- A text: nothing is refused. -/
def textValue (set : Settings.Layer → String → Settings.Layer) (choices : Choices)
    (value : String) : Option Choices :=
  some { choices with layer := set choices.layer value }

/-- A path: the empty text is refused. -/
def pathValue (set : Settings.Layer → String → Settings.Layer) (choices : Choices)
    (value : String) : Option Choices :=
  if value = "" then none else textValue set choices value

/-- A decimal digit. -/
def isDigit (c : Char) : Bool :=
  '0' ≤ c && c ≤ '9'

/-- The natural number that decimal digits spell, if there are any. -/
def digitsValue? (cs : List Char) : Option Nat :=
  if !cs.isEmpty && cs.all isDigit then
    some (cs.foldl (fun n c => n * 10 + (c.toNat - 48)) 0)
  else none

/-- The word that a text spells; a plus may stand in front of the digits. -/
def wordOf? (value : String) : Option UInt64 := do
  let digits :=
    match value.toList with
    | '+' :: rest => rest
    | cs => cs
  let n ← digitsValue? digits
  if n < UInt64.size then some (UInt64.ofNat n) else none

/-- A natural number of sixty-four bits. -/
def countValue (set : Settings.Layer → UInt64 → Settings.Layer) (choices : Choices)
    (value : String) : Option Choices :=
  (wordOf? value).map fun n => { choices with layer := set choices.layer n }

/-- The form that a word names. -/
def formOf? (value : String) : Option Form :=
  if value = "text" then some .text
  else if value = "json" then some .json
  else none

/-! ### Options -/

/-- The path of the settings file. -/
def settingsFileOption : Valued where
  name := "config"
  environment := some "VIGIL_CONFIG"
  set choices value := if value = "" then none else some { choices with settingsFile := some value }

/-- The options that are settings. -/
def settingOptions : List Valued :=
  [{ name := "service", environment := some "VIGIL_SERVICE_NAME"
     set := textValue fun layer value => { layer with service := value } },
    { name := "health-url", environment := some "VIGIL_HEALTH_URL"
      set := textValue fun layer value => { layer with healthUrl := value } },
    { name := "metrics-url", environment := some "VIGIL_METRICS_URL"
      set := textValue fun layer value => { layer with metricsUrl := value } },
    { name := "auth-token", environment := some "VIGIL_AUTH_TOKEN"
      set := textValue fun layer value => { layer with authToken := value } },
    { name := "state-path", environment := some "VIGIL_STATE_PATH"
      set := pathValue fun layer value => { layer with statePath := value } },
    { name := "stall-minutes", environment := some "VIGIL_STALL_MINUTES"
      set := countValue fun layer value => { layer with stallMinutes := value } },
    { name := "alert-command", environment := some "VIGIL_ALERT_COMMAND"
      set := pathValue fun layer value => { layer with alertCommand := value } },
    { name := "alert-title", environment := some "VIGIL_ALERT_TITLE"
      set := textValue fun layer value => { layer with alertTitle := value } },
    { name := "timeout-secs", environment := some "VIGIL_TIMEOUT_SECS"
      set := countValue fun layer value => { layer with timeoutSeconds := value } }]

/-- The form of the log, which is no part of what is written here. -/
def logOption : Valued where
  name := "log-format"
  set choices value := (formOf? value).map fun _ => choices

/-- The form of the report. -/
def formOption : Valued where
  name := "format"
  letter := some 'f'
  set choices value := (formOf? value).map fun form => { choices with form := form }

/-- The options with a value that may stand at a place. -/
def valuedAt (place : Place) : List Valued :=
  (if place = .check then [formOption] else []) ++
    settingsFileOption :: settingOptions ++ [logOption]

/-- The variables of the environment that may give a setting. -/
def variableNames : List String :=
  (valuedAt .program).filterMap (·.environment)

/-- The options without a value that may stand at a place, with their names and letters. -/
def flagsAt (place : Place) : List (String × Option Char × Flag) :=
  (if place = .check then [("no-alert", none, .noAlert)] else []) ++
    [("verbose", some 'v', .verbose), ("version", some 'V', .version), ("help", some 'h', .help)]

end ServiceWatch.CommandLine
