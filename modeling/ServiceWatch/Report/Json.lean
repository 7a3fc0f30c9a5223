import ServiceWatch.Json.Record
import ServiceWatch.Json.Tagged
import ServiceWatch.Report

/-!
# Reports as JSON documents

Each entry of a report is an object that begins with its kind.  A report has a member for its
outages and one for its concerns, both of which are required.  A severity is a word.
-/

namespace ServiceWatch

namespace Json

/-- A slot for a string. -/
def textSlot {σ : Type} (name : String) (set : σ → String → σ) : Slot σ :=
  ⟨name, fun fields value => value.toText.map (set fields)⟩

/-- A variant with one string. -/
def oneText {α : Type} (tag expected name : String) (build : String → α) : Variant α :=
  .ofSlots tag expected [textSlot name fun _ text => text] "" build

/-- A variant with two strings. -/
def twoTexts {α : Type} (tag expected first second : String) (build : String → String → α) :
    Variant α :=
  .ofSlots tag expected
    [textSlot first fun fields text => (text, fields.2),
      textSlot second fun fields text => (fields.1, text)]
    ("", "") fun fields => build fields.1 fields.2

/-- An object that begins with its kind. -/
def tagged (tag : String) (members : List (String × Value)) : Value :=
  .object ((tagName, .string tag) :: members)

end Json

open Json

namespace EndpointFailure

/-- The failure as a JSON value. -/
def toJson : EndpointFailure → Value
  | .status code body =>
    tagged "status"
      [("code", .number (.unsigned (UInt64.ofNat code.toNat))), ("body", .string body)]
  | .unreachable reason => tagged "unreachable" [("reason", .string reason)]

/-- How failures are read. -/
def variants : Variants EndpointFailure where
  expected := "internally tagged enum FetchFailure"
  variants :=
    [.ofSlots "status" "struct variant FetchFailure::Status"
      [⟨"code", fun fields value => value.toUInt16.map fun code => (code, fields.2)⟩,
        textSlot "body" fun fields text => (fields.1, text)]
      ((0 : UInt16), "") fun fields => .status fields.1 fields.2,
      oneText "unreachable" "struct variant FetchFailure::Unreachable" "reason" .unreachable]

/-- The slot for the failure of an endpoint. -/
def slot : Slot EndpointFailure :=
  ⟨"failure", fun _ value => variants.ofValue value⟩

end EndpointFailure

namespace Outage

/-- The outage as a JSON value. -/
def toJson : Outage → Value
  | .processQuery program reason =>
    tagged "process_query" [("program", .string program), ("reason", .string reason)]
  | .serviceInactive service state =>
    tagged "service_inactive" [("service", .string service), ("state", .string state)]
  | .healthEndpoint failure => tagged "health_endpoint" [("failure", failure.toJson)]
  | .metricsEndpoint failure => tagged "metrics_endpoint" [("failure", failure.toJson)]

/-- How outages are read. -/
def variants : Variants Outage where
  expected := "internally tagged enum ErrorKind"
  variants :=
    [twoTexts "process_query" "struct variant ErrorKind::ProcessQuery" "program" "reason"
        .processQuery,
      twoTexts "service_inactive" "struct variant ErrorKind::ServiceInactive" "service" "state"
        .serviceInactive,
      .ofSlots "health_endpoint" "struct variant ErrorKind::HealthEndpoint" [EndpointFailure.slot]
        default .healthEndpoint,
      .ofSlots "metrics_endpoint" "struct variant ErrorKind::MetricsEndpoint"
        [EndpointFailure.slot] default .metricsEndpoint]

end Outage

namespace Concern

/-- The concern as a JSON value. -/
def toJson : Concern → Value
  | .missingSeries series => tagged "missing_series" [("series", .string series)]
  | .stalled counter elapsed =>
    tagged "stalled" [("counter", .string counter), ("elapsed_secs", .number (.unsigned elapsed))]
  | .memoryUnreadable reason => tagged "state_unreadable" [("reason", .string reason)]
  | .memoryNotSaved reason => tagged "state_not_saved" [("reason", .string reason)]

/-- How concerns are read. -/
def variants : Variants Concern where
  expected := "internally tagged enum WarningKind"
  variants :=
    [oneText "missing_series" "struct variant WarningKind::MissingSeries" "series" .missingSeries,
      .ofSlots "stalled" "struct variant WarningKind::Stalled"
        [textSlot "counter" fun fields text => (text, fields.2),
          ⟨"elapsed_secs", fun fields value => value.toUInt64.map fun time => (fields.1, time)⟩]
        ("", (0 : UInt64)) fun fields => .stalled fields.1 fields.2,
      oneText "state_unreadable" "struct variant WarningKind::StateUnreadable" "reason"
        .memoryUnreadable,
      oneText "state_not_saved" "struct variant WarningKind::StateNotSaved" "reason"
        .memoryNotSaved]

end Concern

namespace Report

/-- The report as a JSON value. -/
def toJson (report : Report) : Value :=
  .object
    [("errors", .array (report.outages.map Outage.toJson)),
      ("warnings", .array (report.concerns.map Concern.toJson))]

/-- How many containers may be nested inside a report, the report itself counted. -/
def depth : Nat := 127

/-- Reads the outages. -/
def readOutages (report : Report) (s : Input) : Except Failure (Report × Input) := do
  let (outages, s) ← Outage.variants.readList depth s
  .ok ({ report with outages := outages }, s)

/-- Reads the concerns. -/
def readConcerns (report : Report) (s : Input) : Except Failure (Report × Input) := do
  let (concerns, s) ← Concern.variants.readList depth s
  .ok ({ report with concerns := concerns }, s)

/-- How a report is read. -/
def record : Record Report where
  expected := "struct ProbeReport"
  fields := [⟨"errors", true, readOutages⟩, ⟨"warnings", true, readConcerns⟩]
  blank := {}

/-- The report that a document holds. -/
def ofDocument (document : Input) : Except Failure Report :=
  record.readDocument document

/-- The document without blanks that holds the report. -/
def compact (report : Report) : List Char :=
  report.toJson.compact

end Report

namespace Severity

/-- The word for a severity in a document. -/
def word : Severity → String
  | .ok => "ok"
  | .warning => "warning"
  | .error => "error"

/-- The severities, the least grave first. -/
def all : List Severity := [.ok, .warning, .error]

/-- The severity as a JSON value. -/
def toJson (severity : Severity) : Value :=
  .string severity.word

/-- Reads the word for a severity behind its opening quotation mark. -/
def readWord (s : Input) : Except Failure (Severity × Input) := do
  let (text, s) ← readString s
  match all.find? fun severity => severity.word == text with
  | some severity => .ok (severity, s)
  | none => failAt (.unknownVariant text (all.map word)) s

/-- Reads the `null` that stands for the absent content of a severity. -/
def readNothing (s : Input) : Except Failure Input :=
  match skipGap s with
  | [] => failAt (.endInside .value) []
  | 0x6E :: s => Json.readWord [0x75, 0x6C, 0x6C] s
  | s => readWrongKind "unit" s

/-- Reads the only member of an object, behind the opening brace: its name is the word for a
severity and its value is `null`. -/
def readMember (s : Input) : Except Failure (Severity × Input) :=
  match skipGap s with
  | 0x7D :: s => failAt .expectedValue s
  | s => do
    let (severity, s) ← readWord (← openName s)
    let s ← readNothing (← readColon s)
    .ok (severity, s)

/-- Reads a severity: its word, or an object whose only member has that name and the value
`null`. -/
def read (s : Input) : Except Failure (Severity × Input) :=
  match skipGap s with
  | [] => failAt (.endInside .value) []
  | 0x22 :: s => readWord s
  | 0x7B :: s => do
    let (severity, s) ← readMember s
    match skipGap s with
    | [] => failAt (.endInside .object) []
    | 0x7D :: s => .ok (severity, s)
    | s => failAt .expectedValue s
  | _ :: s => failAt .expectedValue s

/-- The severity that a document holds. -/
def ofDocument (document : Input) : Except Failure Severity := do
  let (severity, s) ← read document
  readEnd s
  .ok severity

end Severity

end ServiceWatch
