import ServiceWatch.CommandLine.Run
import ServiceWatch.Proofs.Probe.Lines

/-!
# How many lines are written about a run

What is written about a run ends every entry of its report with a line feed, and the body of an
alert has line feeds between its lines.  Texts that the endpoints and the process manager gave come
into the entries with the line feeds inside them, and nothing else brings line feeds there.  So
there is one line for each entry exactly if those texts are lines (`lines_of_run`).
-/

namespace ServiceWatch.CommandLine

open Probe (Scene)
open Text (IsLine)

variable {σ : Type} {allows : Plan.Behaviour Disk.files σ} {before after : σ} {scene : Scene}
  {settings : Settings} {outcome : Probe.Outcome}

theorem length_lines (report : Report) :
    report.lines.length = report.outages.length + report.concerns.length := by
  simp [Report.lines, Report.outageLines, Report.concernLines]

/-- What is written about a run has a line for each entry exactly if every entry is told in one. -/
theorem count_written_eq_iff :
    (written .text outcome).toList.count '\n' =
        outcome.report.outages.length + outcome.report.concerns.length ↔
      outcome.report.HasOneLineEach := by
  rw [← length_lines]
  exact Text.count_join_eq_length_iff

/-- **One line is written for each entry if, and only if, what the report quotes is one line.**
Where the name of the service, the path of the memory, the reasons for which there was no answer and
those of the file system have no line feed, the entries of a run's report are told in one line each
exactly if the state of the service is one line and the answers that are no success begin, without
the blanks around them, with one line of as many characters as are quoted.

Then what is written about the run has one line for each entry, and the body of the alert has its
headings, one line for each entry under them, and an empty line between the two lists if neither is
empty.  Otherwise there are not as many lines written as there are entries. -/
theorem lines_of_run (hruns : scene.Runs settings allows before outcome after)
    (hservice : IsLine settings.service) (hpath : IsLine settings.statePath)
    (hreasons : scene.GivesReasonsInLine) (hallows : Store.RefusesInLine allows) :
    (outcome.report.HasOneLineEach ↔ scene.AnswersInLine) ∧
    ((written .text outcome).toList.count '\n' =
        outcome.report.outages.length + outcome.report.concerns.length ↔
      scene.AnswersInLine) ∧
    (scene.AnswersInLine →
      Text.splitOn '\n' (written .text outcome).toList =
        outcome.report.lines.map String.toList ++ [[]]) ∧
    (scene.AnswersInLine → outcome.report.isHealthy = false →
      Text.splitOn '\n' outcome.report.alertBody.toList =
        ([""].intercalate outcome.report.paragraphs).map String.toList) := by
  have hlines := hruns.hasOneLineEach_iff hservice hpath hreasons hallows
  refine ⟨hlines, count_written_eq_iff.trans hlines, fun hanswers => ?_, fun hanswers => ?_⟩
  · exact Text.splitOn_join (hlines.mpr hanswers)
  · exact Report.splitOn_alertBody (hlines.mpr hanswers)

/-- A file system that refuses everything. -/
def sealed : (action : Disk.Action) → StateM Unit action.Reply
  | .isDirectory _ => pure false
  | .read _ => pure (Except.error SystemError.permissionDenied)
  | .append .. => pure (Except.error SystemError.permissionDenied)
  | .makeDirectory _ => pure (Except.error SystemError.permissionDenied)
  | .create _ => pure (Except.error SystemError.permissionDenied)
  | .sync _ => pure (Except.error SystemError.permissionDenied)
  | .rename .. => pure (Except.error SystemError.permissionDenied)
  | .remove _ => pure (Except.error SystemError.permissionDenied)

/-- The files reply as that file system does. -/
def Sealed : Plan.Behaviour Disk.files Unit := fun _ action reply _ =>
  reply = (sealed action ()).1

theorem refusesInLine_sealed : Store.RefusesInLine Sealed := by
  rintro _ action _ _ rfl code text hrefusal
  cases action <;> cases hrefusal

/-- A service that is being started again, and an endpoint that says so in two lines. -/
def restarting : Scene where
  state := .ofAnswer "activating\n(auto-restart)"
  health := .response 503 "draining\nretry later\n"
  metrics := .response 200
    "anchors_received_total 1\nanchors_verified_total 1\nfinality_events_total 7\n"
  process := 1
  now := 100

/-- The report has four entries, and it is not four lines that are written about the run. -/
theorem lines_of_restarting :
    restarting.GivesReasonsInLine ∧ ∃ outcome,
      restarting.Runs .defaults Sealed () outcome () ∧ ¬outcome.report.HasOneLineEach ∧
        outcome.report.outages.length + outcome.report.concerns.length = 4 ∧
        (written .text outcome).toList.count '\n' ≠ 4 := by
  have hruns : restarting.Runs .defaults Sealed ()
      (restarting.perform sealed .defaults ()).1 () :=
    Scene.runs_perform (fun _ _ => rfl) _ _ _
  have hstate : restarting.state = .inactive "activating\n(auto-restart)" := by decide +kernel
  have hreasons : restarting.GivesReasonsInLine := by
    refine ⟨fun _ _ heq => ?_, nofun, nofun⟩
    rw [hstate] at heq
    cases heq
  have hword : ¬IsLine (Text.trim "activating\n(auto-restart)") := by decide +kernel
  have hquotes : ¬restarting.AnswersInLine := fun hanswers =>
    hword ((ServiceState.isLine_word_ofAnswer _).mp hanswers.state)
  have hentries : (restarting.perform sealed .defaults ()).1.report.outages.length +
      (restarting.perform sealed .defaults ()).1.report.concerns.length = 4 := by decide +kernel
  obtain ⟨hlines, hcount, -⟩ := lines_of_run hruns (by decide) (by decide) hreasons
    refusesInLine_sealed
  exact ⟨hreasons, _, hruns, mt hlines.mp hquotes, hentries,
    fun hfour => hquotes (hcount.mp (hfour.trans hentries.symm))⟩

end ServiceWatch.CommandLine
