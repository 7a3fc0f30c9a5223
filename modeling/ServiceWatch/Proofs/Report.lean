import Mathlib.Data.List.Basic
import ServiceWatch.Report

/-!
# Reading a report

The exit code of a report tells which of its two lists has an entry.  `Report.InOrder` gives every
kind of entry a place; entries in strict order of their places are in the order of the checks and
none of them occurs twice, so such a report is determined by which entries it has.
-/

namespace ServiceWatch

/-- The place of an outage among the outages of a report. -/
def Outage.place : Outage → ℕ
  | .processQuery .. => 0
  | .serviceInactive .. => 1
  | .healthEndpoint _ => 2
  | .metricsEndpoint _ => 3

/-- The series that a scrape has to hold, in the order in which a report tells which are missing. -/
def seriesInOrder : List String :=
  ["anchors_received_total", "anchors_verified_total", "finality_events_total"]

/-- The place of a concern among the concerns of a report: missing series in their order, and then
the others. -/
def Concern.place : Concern → ℕ
  | .missingSeries series => seriesInOrder.idxOf series
  | .stalled .. => 3
  | .memoryUnreadable _ => 4
  | .memoryNotSaved _ => 5

namespace Report

variable (report : Report)

/-- The entries stand in the order of their places, and no two of them have the same. -/
structure InOrder (report : Report) : Prop where
  outages : report.outages.Pairwise fun first second => first.place < second.place
  concerns : report.concerns.Pairwise fun first second => first.place < second.place

theorem InOrder.nodup {report : Report} (horder : report.InOrder) :
    report.outages.Nodup ∧ report.concerns.Nodup := by
  constructor
  · exact horder.outages.imp fun hless heq => by rw [heq] at hless; exact Nat.lt_irrefl _ hless
  · exact horder.concerns.imp fun hless heq => by rw [heq] at hless; exact Nat.lt_irrefl _ hless

/-! ### The exit code -/

/-- The three exit codes, and the reports that have them. -/
theorem exitCode_cases :
    (∃ outage, outage ∈ report.outages) ∧ report.exitCode = 2 ∨
      (¬ ∃ outage, outage ∈ report.outages) ∧ (∃ concern, concern ∈ report.concerns) ∧
        report.exitCode = 1 ∨
      (¬ ∃ outage, outage ∈ report.outages) ∧ (¬ ∃ concern, concern ∈ report.concerns) ∧
        report.exitCode = 0 := by
  obtain ⟨outages, concerns⟩ := report
  cases outages with
  | cons outage rest => exact Or.inl ⟨⟨outage, List.mem_cons_self⟩, rfl⟩
  | nil =>
      cases concerns with
      | cons concern rest =>
          exact Or.inr (Or.inl ⟨by simp, ⟨concern, List.mem_cons_self⟩, rfl⟩)
      | nil => exact Or.inr (Or.inr ⟨by simp, by simp, rfl⟩)

theorem exitCode_eq_two_iff : report.exitCode = 2 ↔ ∃ outage, outage ∈ report.outages := by
  rcases report.exitCode_cases with ⟨hdown, hcode⟩ | ⟨hup, -, hcode⟩ | ⟨hup, -, hcode⟩
  · simp [hcode, hdown]
  · simp [hcode, hup]
  · simp [hcode, hup]

theorem exitCode_eq_one_iff :
    report.exitCode = 1 ↔
      (¬ ∃ outage, outage ∈ report.outages) ∧ ∃ concern, concern ∈ report.concerns := by
  rcases report.exitCode_cases with ⟨hdown, hcode⟩ | ⟨hup, hconcern, hcode⟩ | ⟨hup, hnone, hcode⟩
  · simp [hcode, hdown]
  · simp [hcode, hup, hconcern]
  · simp [hcode, hnone]

theorem exitCode_eq_zero_iff :
    report.exitCode = 0 ↔
      (¬ ∃ outage, outage ∈ report.outages) ∧ ¬ ∃ concern, concern ∈ report.concerns := by
  rcases report.exitCode_cases with ⟨hdown, hcode⟩ | ⟨hup, hconcern, hcode⟩ | ⟨hup, hnone, hcode⟩
  · simp [hcode, hdown]
  · simp [hcode, hconcern]
  · simp [hcode, hup, hnone]

theorem isHealthy_iff : report.isHealthy = true ↔ report.exitCode = 0 := by
  unfold isHealthy exitCode
  cases report.severity <;> simp [Severity.exitCode]

/-! ### Exact reports -/

/-- The report has these outages and concerns and no others, in the order of the checks and each of
them once, and its exit code tells whether there are any. -/
structure IsExact (isDown : Outage → Prop) (isConcerned : Concern → Prop) : Prop where
  mem_outages : ∀ outage, outage ∈ report.outages ↔ isDown outage
  mem_concerns : ∀ concern, concern ∈ report.concerns ↔ isConcerned concern
  inOrder : report.InOrder
  nodup_outages : report.outages.Nodup
  nodup_concerns : report.concerns.Nodup
  exitCode_two : report.exitCode = 2 ↔ ∃ outage, isDown outage
  exitCode_one : report.exitCode = 1 ↔
    (¬ ∃ outage, isDown outage) ∧ ∃ concern, isConcerned concern
  exitCode_zero : report.exitCode = 0 ↔
    (¬ ∃ outage, isDown outage) ∧ ¬ ∃ concern, isConcerned concern

/-- Entries in order are in there once, and the exit code is that of what there is. -/
theorem InOrder.isExact {report : Report} {isDown : Outage → Prop} {isConcerned : Concern → Prop}
    (horder : report.InOrder) (hdown : ∀ outage, outage ∈ report.outages ↔ isDown outage)
    (hconcerned : ∀ concern, concern ∈ report.concerns ↔ isConcerned concern) :
    report.IsExact isDown isConcerned where
  mem_outages := hdown
  mem_concerns := hconcerned
  inOrder := horder
  nodup_outages := horder.nodup.1
  nodup_concerns := horder.nodup.2
  exitCode_two := report.exitCode_eq_two_iff.trans (exists_congr hdown)
  exitCode_one := report.exitCode_eq_one_iff.trans
    (and_congr (not_congr (exists_congr hdown)) (exists_congr hconcerned))
  exitCode_zero := report.exitCode_eq_zero_iff.trans
    (and_congr (not_congr (exists_congr hdown)) (not_congr (exists_congr hconcerned)))

end Report

end ServiceWatch
