import ServiceWatch.Disk.Action
import ServiceWatch.Settings.Toml
import ServiceWatch.Text.Utf8

/-!
# Where settings come from

The settings of a run are the defaults under the layer of a settings file under the layer of the
command line.  They are refused when the file is named and cannot be read or understood, and when
the outcome of the layering has a defect.
-/

namespace ServiceWatch.Settings

/-- Why there are no settings to run with. -/
inductive Fault where
  /-- The settings file cannot be read. -/
  | unreadable (path reason : String)
  /-- The settings file cannot be understood. -/
  | unparsable (document : Toml.Input) (fault : Toml.Fault)
  | defective (defect : Defect)
deriving DecidableEq, Repr, Inhabited

/-- The text of a fault. -/
def Fault.message : Fault → String
  | .unreadable path reason => "failed to read config " ++ path ++ ": " ++ reason
  | .unparsable document fault => "failed to parse config: " ++ fault.message document
  | .defective defect => "invalid config: " ++ defect.message

/-- The texts of the causes of a fault, each inside the one before it. -/
def Fault.causes : Fault → List String
  | .unreadable _ reason => [reason]
  | .unparsable document fault => [fault.message document]
  | .defective _ => []

/-- The reason to give for a file that is no text. -/
def notText : String := "stream did not contain valid UTF-8"

/-- The layer of a settings document. -/
def layerOf (document : Toml.Input) : Except Fault Layer :=
  match ofToml document with
  | .ok layer => .ok layer
  | .error fault => .error (.unparsable document fault)

/-- The layer that the content of a settings file gives. -/
def ofContent (path : String) : Except SystemError (List UInt8) → Except Fault Layer
  | .error refusal => .error (.unreadable path refusal.message)
  | .ok content =>
    match Text.Utf8.decode? content with
    | none => .error (.unreadable path notText)
    | some document => layerOf document

/-- The settings that a layer of the command line and one of a settings file give, if nothing is
wrong with them. -/
def resolve (own file : Layer) : Except Fault Settings :=
  let settings := own.over (file.over .defaults)
  match settings.defect? with
  | some defect => .error (.defective defect)
  | none => .ok settings

end ServiceWatch.Settings
