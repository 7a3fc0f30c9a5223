import ServiceWatch.Probe.Json
import ServiceWatch.Proofs.Report.Json

/-!
# The document about a run

The document about a run holds its report, since its other members have other names than those of a
report; and it is read as the tree that it was written from.
-/

namespace ServiceWatch.Probe.Outcome

open Json (IsBlank Style Value)
open Text.Utf8 (encode)

variable (outcome : Outcome)

/-- The members in front of those of the report. -/
def front : List (String × Value) :=
  [("severity", outcome.report.severity.toJson),
    ("exit_code", natural outcome.report.exitCode),
    ("lines", .array (outcome.report.lines.map .string))]

/-- The members behind those of the report. -/
def back : List (String × Value) :=
  [("stall", .string outcome.verdict.label),
    ("stall_elapsed_secs", outcome.verdict.elapsed?.elim .null fun time =>
      .number (.unsigned time)),
    ("state_saved", .bool outcome.isSaved)]

theorem toJson_eq :
    outcome.toJson = .object (outcome.front ++ (outcome.report.members ++ outcome.back)) :=
  rfl

theorem fits_elapsed {nesting : ℕ} (elapsed : Option UInt64) :
    (elapsed.elim .null fun time => .number (.unsigned time) : Value).Fits nesting := by
  cases elapsed with
  | none => exact .null
  | some time => exact .natural time

theorem fits_others (nesting : ℕ) :
    ∀ member ∈ outcome.front ++ outcome.back,
      Report.record.knows member.1 = false ∧ member.2.Fits (nesting + 2) := by
  have hlines : (Value.array (outcome.report.lines.map .string)).Fits (nesting + 2) := by
    refine .array fun json hjson => ?_
    obtain ⟨line, -, rfl⟩ := List.mem_map.mp hjson
    exact .string line
  simp only [front, back, List.cons_append, List.nil_append, List.forall_mem_cons]
  refine ⟨⟨rfl, .string _⟩, ⟨rfl, .natural _⟩, ⟨rfl, hlines⟩, ⟨rfl, .string _⟩,
    ⟨rfl, fits_elapsed _⟩, ⟨rfl, .bool _⟩, ?_⟩
  exact fun _ hmember => absurd hmember List.not_mem_nil

theorem fits_toJson (nesting : ℕ) : outcome.toJson.Fits (nesting + 5) := by
  rw [toJson_eq]
  refine .object fun member hmember => ?_
  rw [List.mem_append, List.mem_append, or_left_comm] at hmember
  rcases hmember with hreport | hother
  · exact outcome.report.fits_members _ member hreport
  · exact (outcome.fits_others _ member (List.mem_append.mpr hother)).2

/-- **The document about a run holds its report**, in either style. -/
theorem ofDocument_text (style : Style) {gap : Json.Input} (hgap : IsBlank gap) :
    Report.ofDocument (encode (style.text 0 outcome.toJson) ++ gap) = .ok outcome.report := by
  rw [toJson_eq]
  have hnames : ((outcome.front ++ (outcome.report.members ++ outcome.back)).map Prod.fst) =
      ["severity", "exit_code", "lines", "errors", "warnings", "stall", "stall_elapsed_secs",
        "state_saved"] := rfl
  refine outcome.report.ofDocument_text style (outcome.fits_others 0) ?_ hgap
  rw [hnames]
  decide

/-- **The document about a run is read as the tree that it was written from.** -/
theorem readTree_text (style : Style) {gap : Json.Input} (hgap : IsBlank gap) :
    Json.readTree Report.depth (encode (style.text 0 outcome.toJson) ++ gap) =
      .ok (outcome.toJson, gap) :=
  Json.readTree_text style (outcome.fits_toJson 122) 0 Json.isBlank_nil hgap.stops

end ServiceWatch.Probe.Outcome
