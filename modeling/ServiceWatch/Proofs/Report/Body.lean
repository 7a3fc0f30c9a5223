import ServiceWatch.Proofs.Report
import ServiceWatch.Proofs.Text.Line

/-!
# Reading the body of an alert

The body of an alert has a paragraph for the outages and one for the concerns, each behind its
heading, with an empty line between them (`alertBody_eq`).  No entry of a report has an empty line,
whatever texts it holds, so the empty line tells where a paragraph ends.  Where every entry is told
in one line the body can therefore be taken apart again (`paragraphsOf_alertBody`), and the headings
tell the two lists of lines (`linesUnder_alertBody`).
-/

namespace ServiceWatch

open Text (IsLine)

theorem Outage.line_ne_empty (outage : Outage) : outage.line ≠ "" := by
  unfold Outage.line
  cases outage with
  | processQuery program reason => simp
  | serviceInactive service state => simp
  | healthEndpoint failure => simp
  | metricsEndpoint failure => simp

theorem Concern.line_ne_empty (concern : Concern) : concern.line ≠ "" := by
  unfold Concern.line
  cases concern with
  | missingSeries series => simp
  | stalled counter elapsed => simp
  | memoryUnreadable reason => simp
  | memoryNotSaved reason => simp

namespace Report

/-- Every entry of the report is told in one line. -/
def HasOneLineEach (report : Report) : Prop := ∀ line ∈ report.lines, IsLine line

instance (report : Report) : Decidable report.HasOneLineEach :=
  inferInstanceAs (Decidable (∀ line ∈ report.lines, IsLine line))

/-- The paragraph of some lines, if there are any: its heading and the lines. -/
def paragraph? (heading : String) (lines : List String) : List (List String) :=
  if lines.isEmpty then [] else [heading :: lines]

/-- The paragraphs of the body of an alert. -/
def paragraphs (report : Report) : List (List String) :=
  paragraph? "Errors:" report.outageLines ++ paragraph? "Warnings:" report.concernLines

/-- The lines of a body, taken apart at the empty ones. -/
def paragraphsOf (body : String) : List (List String) :=
  ((Text.splitOn '\n' body.toList).map String.ofList).splitOn ""

/-- The lines of the first paragraph with this heading. -/
def linesUnder (heading : String) (paragraphs : List (List String)) : List String :=
  ((paragraphs.find? fun paragraph => paragraph.head? == some heading).map List.tail).getD []

variable {report : Report} {heading line : String} {lines : List String}

/-! ### What the body holds -/

theorem map_paragraph? :
    (paragraph? heading lines).map "\n".intercalate = section? heading lines := by
  cases lines with
  | nil => rfl
  | cons line rest => simp [section?, paragraph?]

/-- The body of an alert is its paragraphs with an empty line between them. -/
theorem alertBody_eq (report : Report) :
    report.alertBody = "\n".intercalate ([""].intercalate report.paragraphs) := by
  unfold alertBody paragraphs
  rw [← map_paragraph?, ← map_paragraph?]
  cases report.outageLines with
  | nil =>
      cases report.concernLines with
      | nil => rfl
      | cons concern concerns => simp [paragraph?]
  | cons outage outages =>
      cases report.concernLines with
      | nil => simp [paragraph?]
      | cons concern concerns =>
          -- one line break ends the last line above and one the empty line
          have hjoin : "\n".intercalate
                (("Errors:" :: outage :: outages) ++ "" :: "Warnings:" :: concern :: concerns) =
              "\n".intercalate ("Errors:" :: outage :: outages) ++ "\n\n" ++
                "\n".intercalate ("Warnings:" :: concern :: concerns) := by
            have hbreaks : "\n\n" = "\n" ++ "\n" := by decide
            rw [String.intercalate_append_of_ne_nil (by simp) (by simp),
              String.intercalate_cons_of_ne_nil (t := "") (by simp), String.empty_append, hbreaks]
            simp only [String.append_assoc]
          simpa [paragraph?] using hjoin.symm

theorem mem_lines_of_mem_paragraphs {paragraph : List String}
    (hparagraph : paragraph ∈ report.paragraphs) (hline : line ∈ paragraph) :
    line = "Errors:" ∨ line = "Warnings:" ∨ line ∈ report.lines := by
  have hcases : ∀ {heading : String} {lines : List String},
      paragraph ∈ paragraph? heading lines → line = heading ∨ line ∈ lines := by
    intro heading lines hmem
    cases lines with
    | nil => simp [paragraph?] at hmem
    | cons first rest =>
        rw [List.mem_singleton.mp hmem] at hline
        exact List.mem_cons.mp hline
  rcases List.mem_append.mp hparagraph with hmem | hmem
  · exact (hcases hmem).imp_right fun hline => Or.inr (List.mem_append_left _ hline)
  · exact Or.inr ((hcases hmem).imp_right fun hline => List.mem_append_right _ hline)

theorem ne_empty_of_mem_lines (hline : line ∈ report.lines) : line ≠ "" := by
  rcases List.mem_append.mp hline with hmem | hmem
  · obtain ⟨outage, -, rfl⟩ := List.mem_map.mp hmem
    exact outage.line_ne_empty
  · obtain ⟨concern, -, rfl⟩ := List.mem_map.mp hmem
    exact concern.line_ne_empty

theorem empty_notMem_paragraphs : ∀ paragraph ∈ report.paragraphs, "" ∉ paragraph := by
  intro paragraph hparagraph hempty
  rcases mem_lines_of_mem_paragraphs hparagraph hempty with heq | heq | hline
  · exact absurd heq (by decide)
  · exact absurd heq (by decide)
  · exact ne_empty_of_mem_lines hline rfl

theorem isHealthy_eq_true_iff :
    report.isHealthy = true ↔ report.outages = [] ∧ report.concerns = [] := by
  obtain ⟨outages, concerns⟩ := report
  cases outages <;> cases concerns <;> simp [isHealthy, severity]

/-- Only a healthy report has nothing to tell. -/
theorem alertBody_eq_empty_iff : report.alertBody = "" ↔ report.isHealthy = true := by
  rw [isHealthy_eq_true_iff]
  obtain ⟨outages, concerns⟩ := report
  cases outages <;> cases concerns <;>
    simp [alertBody, outageLines, concernLines, section?, String.append_assoc]

/-! ### Taking the body apart -/

theorem isLine_of_mem_paragraphs (hlines : report.HasOneLineEach) :
    ∀ line ∈ [""].intercalate report.paragraphs, IsLine line := by
  intro line hline
  rcases Text.mem_of_mem_intercalate hline with hempty | ⟨paragraph, hparagraph, hmem⟩
  · rw [List.mem_singleton.mp hempty]
    decide
  · rcases mem_lines_of_mem_paragraphs hparagraph hmem with rfl | rfl | hline
    · decide
    · decide
    · exact hlines line hline

theorem intercalate_paragraphs_ne_nil (hhealthy : report.isHealthy = false) :
    [""].intercalate report.paragraphs ≠ [] := by
  intro hnil
  have hbody : report.alertBody = "" := by
    rw [alertBody_eq, hnil]
    rfl
  rw [alertBody_eq_empty_iff.mp hbody] at hhealthy
  exact Bool.noConfusion hhealthy

theorem paragraphs_ne_nil (hhealthy : report.isHealthy = false) : report.paragraphs ≠ [] := by
  intro hnil
  refine intercalate_paragraphs_ne_nil hhealthy ?_
  rw [hnil]
  rfl

/-- The lines of the body of an alert. -/
theorem splitOn_alertBody (hlines : report.HasOneLineEach) (hhealthy : report.isHealthy = false) :
    Text.splitOn '\n' report.alertBody.toList =
      ([""].intercalate report.paragraphs).map String.toList := by
  rw [alertBody_eq, Text.splitOn_intercalate_lines (isLine_of_mem_paragraphs hlines)
    (intercalate_paragraphs_ne_nil hhealthy)]

/-- The body of an alert falls apart into its paragraphs. -/
theorem paragraphsOf_alertBody (hlines : report.HasOneLineEach)
    (hhealthy : report.isHealthy = false) :
    paragraphsOf report.alertBody = report.paragraphs := by
  have htexts : (([""].intercalate report.paragraphs).map String.toList).map String.ofList =
      [""].intercalate report.paragraphs := by
    simp
  rw [paragraphsOf, splitOn_alertBody hlines hhealthy, htexts]
  exact List.splitOn_intercalate "" empty_notMem_paragraphs (paragraphs_ne_nil hhealthy)

theorem linesUnder_paragraphs (report : Report) :
    linesUnder "Errors:" report.paragraphs = report.outageLines ∧
      linesUnder "Warnings:" report.paragraphs = report.concernLines := by
  unfold paragraphs
  cases report.outageLines with
  | nil =>
      cases report.concernLines with
      | nil => exact ⟨rfl, rfl⟩
      | cons concern concerns => exact ⟨rfl, rfl⟩
  | cons outage outages =>
      cases report.concernLines with
      | nil => exact ⟨rfl, rfl⟩
      | cons concern concerns => exact ⟨rfl, rfl⟩

/-- The lines of a report are found again in the body of its alert. -/
theorem linesUnder_alertBody (hlines : report.HasOneLineEach) :
    linesUnder "Errors:" (paragraphsOf report.alertBody) = report.outageLines ∧
      linesUnder "Warnings:" (paragraphsOf report.alertBody) = report.concernLines := by
  cases hhealthy : report.isHealthy with
  | false =>
      rw [paragraphsOf_alertBody hlines hhealthy]
      exact linesUnder_paragraphs report
  | true =>
      obtain ⟨houtages, hconcerns⟩ := isHealthy_eq_true_iff.mp hhealthy
      rw [alertBody_eq_empty_iff.mpr hhealthy, outageLines, concernLines, houtages, hconcerns]
      exact ⟨rfl, rfl⟩

/-- **The body of an alert can be read back.**  Where every entry of a report is told in one line,
the lines under the two headings of the body are those of the report, so reports with the same body
have the same lines; and the body is empty for a healthy report alone. -/
theorem alertBody_tells_lines :
    (∀ report : Report, report.HasOneLineEach →
      linesUnder "Errors:" (paragraphsOf report.alertBody) = report.outageLines ∧
        linesUnder "Warnings:" (paragraphsOf report.alertBody) = report.concernLines) ∧
    (∀ first second : Report, first.HasOneLineEach → second.HasOneLineEach →
      first.alertBody = second.alertBody →
        first.outageLines = second.outageLines ∧ first.concernLines = second.concernLines) ∧
    ∀ report : Report, report.alertBody = "" ↔ report.isHealthy = true := by
  refine ⟨fun report hlines => linesUnder_alertBody hlines, ?_,
    fun report => alertBody_eq_empty_iff⟩
  intro first second hfirst hsecond hbody
  obtain ⟨houtages, hconcerns⟩ := linesUnder_alertBody hfirst
  rw [← houtages, ← hconcerns, hbody]
  exact linesUnder_alertBody hsecond

/-- A process manager that failed for a reason in which the words of a report occur. -/
def longReason : Report where
  outages := [.processQuery "systemctl" "Errors: failed: Warnings:"]
  concerns := [.missingSeries ""]

/-- A process manager with a longer name that failed for the rest of that reason. -/
def longName : Report where
  outages := [.processQuery "systemctl failed: Errors:" "Warnings:"]
  concerns := [.missingSeries ""]

/-- These are different reports with the same lines. -/
theorem alertBody_longReason :
    longReason ≠ longName ∧ longReason.HasOneLineEach ∧ longName.HasOneLineEach ∧
      longReason.alertBody = longName.alertBody ∧
      longReason.outageLines = longName.outageLines ∧
      longReason.concernLines = longName.concernLines ∧
      linesUnder "Warnings:" (paragraphsOf longReason.alertBody) = ["metrics missing "] := by
  have hreason : longReason.HasOneLineEach := by decide +kernel
  have hname : longName.HasOneLineEach := by decide +kernel
  have hbody : longReason.alertBody = longName.alertBody := by decide +kernel
  obtain ⟨hread, hlines, -⟩ := alertBody_tells_lines
  obtain ⟨houtages, hconcerns⟩ := hlines longReason longName hreason hname hbody
  exact ⟨by decide, hreason, hname, hbody, houtages, hconcerns,
    (hread longReason hreason).2.trans (by decide +kernel)⟩

end Report

end ServiceWatch
