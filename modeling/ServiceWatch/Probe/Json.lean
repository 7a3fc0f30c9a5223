import ServiceWatch.Probe
import ServiceWatch.Report.Json

/-!
# The outcome of a run as a JSON document

The document holds the two members of the report, so it can be read as one, and besides them the
severity, the exit code, the lines, and what became of the watched counter and of the memory.
-/

namespace ServiceWatch.Probe.Outcome

open Json

/-- A natural number. -/
def natural (n : Nat) : Value :=
  .number (.unsigned (UInt64.ofNat n))

/-- The outcome as a JSON value. -/
def toJson (outcome : Outcome) : Value :=
  .object
    [("severity", outcome.report.severity.toJson),
      ("exit_code", natural outcome.report.exitCode),
      ("lines", .array (outcome.report.lines.map .string)),
      ("errors", .array (outcome.report.outages.map Outage.toJson)),
      ("warnings", .array (outcome.report.concerns.map Concern.toJson)),
      ("stall", .string outcome.verdict.label),
      ("stall_elapsed_secs", outcome.verdict.elapsed?.elim .null fun time =>
        .number (.unsigned time)),
      ("state_saved", .bool outcome.isSaved)]

/-- The document with a line for each member. -/
def pretty (outcome : Outcome) : List Char :=
  outcome.toJson.pretty

end ServiceWatch.Probe.Outcome
