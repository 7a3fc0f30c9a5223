import ServiceWatch.Settings
import ServiceWatch.Toml.Document
import ServiceWatch.Toml.Fault

/-!
# Settings in a TOML document

Entries of the document that name no setting are passed over.  The first entry whose item does not
fit its setting is refused, at its item or, where no one part of the document holds the item, at
its key.
-/

namespace ServiceWatch.Settings

/-- The layer with the setting that an item gives. -/
def Form.take (form : Form) (layer : Layer) (item : Toml.Item) : Except Mismatch Layer :=
  match form, item with
  | .text _ set, .text value => .ok (set layer value)
  | .text expected _, item => .error (.kind item.found expected)
  | .optionalText set, .text value => .ok (set layer value)
  | .optionalText _, item => .error (.kind item.found "a string")
  | .count set, .integer value =>
    if 0 ≤ value then .ok (set layer (UInt64.ofNat value.toNat))
    else .error (.range (.integer value) "u64")
  | .count _, item => .error (.kind item.found "u64")

/-- The layer with the setting that an entry gives, if it names one. -/
def takeEntry (layer : Layer) (entry : Toml.Entry) : Except Toml.Fault Layer :=
  match forms.lookup entry.1.name with
  | none => .ok layer
  | some form =>
    match form.take layer entry.2.2 with
    | .ok layer => .ok layer
    | .error mismatch => .error (.mismatch (entry.2.1.getD entry.1.span) mismatch)

/-- The layer that a document gives. -/
def ofToml (document : Toml.Input) : Except Toml.Fault Layer :=
  match Toml.entries? document with
  | none => .error .malformed
  | some entries => entries.foldlM takeEntry {}

end ServiceWatch.Settings
