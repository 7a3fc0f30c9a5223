import ServiceWatch.Json.Record
import ServiceWatch.Settings

/-!
# Settings as a JSON document

Written settings have all their members; a document that is read may lack any of them.
-/

namespace ServiceWatch.Settings

open Json

/-- The settings as a JSON value. -/
def toJson (settings : Settings) : Value :=
  .object
    [("service", .string settings.service),
      ("health_url", .string settings.healthUrl),
      ("metrics_url", .string settings.metricsUrl),
      ("auth_token", settings.authToken.elim .null .string),
      ("state_path", .string settings.statePath),
      ("stall_minutes", .number (.unsigned settings.stallMinutes)),
      ("alert_command", .string settings.alertCommand),
      ("alert_title", .string settings.alertTitle),
      ("timeout_secs", .number (.unsigned settings.timeoutSeconds))]

/-- Reads the value of a setting. -/
def Form.read (form : Form) (layer : Layer) (s : Input) : Except Failure (Layer × Input) :=
  match form with
  | .text expected set => do
    let (value, s) ← readText expected s
    .ok (set layer value, s)
  | .optionalText set => do
    let (value, s) ← readOptional (readText "a string") s
    .ok (set layer value, s)
  | .count set => do
    let (value, s) ← readUInt64 s
    .ok (set layer value, s)

/-- How a settings document is read. -/
def record : Record Layer where
  expected := "struct ProbeConfig"
  fields := forms.map fun (name, form) => ⟨name, false, form.read⟩
  blank := {}

/-- The layer that a document gives. -/
def ofJson (document : Input) : Except Failure Layer :=
  record.readDocument document

end ServiceWatch.Settings
