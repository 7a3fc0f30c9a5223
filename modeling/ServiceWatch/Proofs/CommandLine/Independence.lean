import ServiceWatch.Proofs.CommandLine.Alert
import ServiceWatch.Proofs.Probe.Healthy
import ServiceWatch.Proofs.Probe.Independence
import ServiceWatch.Proofs.Settings.Layer

/-!
# What a check does not depend on

The watch over the counter is apart from the other checks of a run, and the token is in the question
to the health endpoint alone.  So where the health endpoint answers alike with either of two tokens,
a check with the one ends as the check with the other, leaves the same behind and makes the same
requests but for the call to the health endpoint (`ends_check_withToken`): it acts alike on files,
and it sends the same alert or none (`watch_apart_from_checks`).
-/

namespace ServiceWatch.CommandLine

open Plan (Behaviour IsDetermined Logged)
open Probe (Outcome Scene WatchAlike)

/-- The health endpoint answers alike with either of two tokens. -/
def AnswersAlike {τ : Type} (allows : Behaviour system τ) (settings : Settings)
    (first second : Option String) : Prop :=
  ∀ before answer after,
    (meet (limit settings) (.answer settings.healthUrl
        { settings with authToken := first }.token?)).Ends allows before answer after ↔
      (meet (limit settings) (.answer settings.healthUrl
        { settings with authToken := second }.token?)).Ends allows before answer after

/-- What a check requests first, with a token: the time, the state of the service, and the call to
the health endpoint. -/
def firstRequests (settings : Settings) (token : Option String) : List Request :=
  [.now, .command (ServiceState.question manager settings.service) (limit settings)] ++
    (callsFor settings.healthUrl { settings with authToken := token }.token?).map
      (.call · (limit settings))

/-- With another token a check ends alike and requests the same, but for the call to the health
endpoint. -/
theorem ends_check_withToken {τ : Type} {allows : Behaviour system τ} {settings : Settings}
    {first second : Option String} (halike : AnswersAlike allows settings first second)
    {process : ℕ} {form : Form} {sendsAlert : Bool} {before after : τ} {ending : Ending}
    {requests : List Request}
    (hends : (check { settings with authToken := first } process form sendsAlert).Ends
      (Logged allows) (before, []) ending (after, requests)) :
    ∃ rest, requests = firstRequests settings first ++ rest ∧
      (check { settings with authToken := second } process form sendsAlert).Ends (Logged allows)
        (before, []) ending (after, firstRequests settings second ++ rest) := by
  obtain ⟨scene, outcome, started, asked, probed, actions, alerts, hprocess, hnow, hanswers, hruns,
    halerted, hending, rfl⟩ := ends_check_logged_iff.mp hends
  have hquestions : Answers allows { settings with authToken := first } scene started asked ↔
      Answers allows { settings with authToken := second } scene started asked :=
    Scene.isAnswered_withToken_iff halike
  -- behind the call to the health endpoint there is the one to the metrics endpoint
  refine ⟨(callsFor settings.metricsUrl none).map (.call · (limit settings)) ++
    actions.map .file ++ alerts, ?_, ends_check_logged_iff.mpr ⟨scene, outcome, started, asked,
      probed, actions, alerts, hprocess, hnow, ?_, ?_, halerted, hending, ?_⟩⟩
  · simp [firstRequests, questionsFor, limit]
  · exact hquestions.mp hanswers
  · exact (Scene.runs_withToken_iff _).mpr ((Scene.runs_withToken_iff _).mp hruns)
  · simp [firstRequests, questionsFor, limit]

/-- **The watch over the counter is apart from the other checks, and the token from all but one of
them.**  Two runs that take the same for the watch come to the same verdict, save alike, leave the
same files and raise the same concerns, whatever else is in their settings and whatever the service
and the health endpoint do.  Every run asks the same three questions in order, whatever it is
answered, and has the token, unless that is empty, in the second alone.

With another token a run has the same outcome and leaves the same files, and to send its alert is to
make the same requests.  A check ends alike and leaves the same behind where the health endpoint
answers alike with either token; all it requests is the same, its actions on files and its alert
among them, but for the call to the health endpoint. -/
theorem watch_apart_from_checks :
    (∀ (σ : Type) (allows : Behaviour Disk.files σ) (settings others : Settings)
        (scene other : Scene) (before after : σ) (outcome : Outcome),
      WatchAlike settings others scene other → scene.Runs settings allows before outcome after →
        (∃ different, other.Runs others allows before different after ∧
          outcome.IsAlike different) ∧
        (IsDetermined allows → ∀ different otherwise,
          other.Runs others allows before different otherwise →
            otherwise = after ∧ outcome.IsAlike different)) ∧
      (∀ (σ : Type) (answers : Behaviour Probe.surroundings σ) (settings : Settings) (process : ℕ)
          (now : UInt64) (before after : σ) (outcome : Outcome) (requests : List Probe.Request),
        (Probe.run settings process now).Ends (Logged answers) (before, []) outcome
            (after, requests) →
          ∃ (token : Option String) (actions : List Disk.Action),
            (∀ text, token = some text ↔ settings.authToken = some text ∧ text ≠ "") ∧
            requests =
              .state settings.service :: .answer settings.healthUrl token ::
                .answer settings.metricsUrl none :: actions.map .file) ∧
      (∀ (σ τ : Type) (allows : Behaviour Disk.files σ) (answers : Behaviour system τ)
          (settings : Settings) (first second : Option String) (scene : Scene) (before after : σ)
          (outcome : Outcome) (timeout : Duration) (started ended : τ) (requests : List Request),
        (scene.Runs { settings with authToken := first } allows before outcome after ∧
            (sendAlert { settings with authToken := first } timeout outcome.report).Ends
              (Logged answers) (started, []) () (ended, requests)) ↔
          (scene.Runs { settings with authToken := second } allows before outcome after ∧
            (sendAlert { settings with authToken := second } timeout outcome.report).Ends
              (Logged answers) (started, []) () (ended, requests))) ∧
      ∀ (τ : Type) (allows : Behaviour system τ) (settings : Settings)
          (first second : Option String) (process : ℕ) (form : Form) (sendsAlert : Bool)
          (before after : τ) (ending : Ending) (requests : List Request),
        AnswersAlike allows settings first second →
        (check { settings with authToken := first } process form sendsAlert).Ends (Logged allows)
            (before, []) ending (after, requests) →
          ∃ rest, requests = firstRequests settings first ++ rest ∧
            (check { settings with authToken := second } process form sendsAlert).Ends
              (Logged allows) (before, []) ending
              (after, firstRequests settings second ++ rest) := by
  refine ⟨?_, ?_, ?_, ?_⟩
  · intro σ allows settings others scene other before after outcome halike hruns
    obtain ⟨matched, hmatched, hsame⟩ := hruns.alike halike
    refine ⟨⟨matched, hmatched, hsame⟩, ?_⟩
    intro hdetermined different otherwise hother
    -- the other run has one ending, so the one that matches is all there is
    obtain ⟨rfl, rfl⟩ := hmatched.unique hdetermined hother
    exact ⟨rfl, hsame⟩
  · intro σ answers settings process now before after outcome requests hends
    obtain ⟨-, -, actions, -, -, -, -, rfl⟩ := Probe.ends_run_logged_iff.mp hends
    exact ⟨settings.token?, actions, fun _ => Settings.token?_eq_some_iff, rfl⟩
  · intro σ τ allows answers settings first second scene before after outcome timeout started ended
      requests
    -- the title and the command of an alert are not the token
    have hruns : scene.Runs { settings with authToken := first } allows before outcome after ↔
        scene.Runs { settings with authToken := second } allows before outcome after :=
      (Scene.runs_withToken_iff first).trans (Scene.runs_withToken_iff second).symm
    exact and_congr hruns Iff.rfl
  · intro τ allows settings first second process form sendsAlert before after ending requests halike
      hends
    exact ends_check_withToken halike hends

/-- The service has failed and the health endpoint is silent, with the metrics of `allWell`. -/
def onlyMetrics : Scene :=
  { Probe.allWell with state := .inactive "failed", health := .unreachable "timed out" }

/-- Settings with a token and another service, but the same file. -/
def guarded : Settings := { Probe.besideIt with service := "other", authToken := some "secret" }

/-- Where nothing answers, an endpoint that can be called takes too long. -/
theorem ends_meet_silent_iff {timeout : Duration} {url : String} {token : Option String}
    (hcalls : (callsFor url token).isEmpty = false) {before after : Disk} {answer : Answer} :
    (meet timeout (.answer url token)).Ends Silent before answer after ↔
      answer = .unreachable (Command.lateness timeout) ∧ after = before := by
  cases hcall : Http.call url token with
  | error fault => simp [callsFor, hcall, Except.toOption] at hcalls
  | ok call =>
      rw [meet_of_call hcall]
      constructor
      · rintro ⟨_, _, ⟨rfl, rfl⟩, rfl, rfl⟩
        exact ⟨rfl, rfl⟩
      · rintro ⟨rfl, rfl⟩
        exact ⟨_, _, ⟨rfl, rfl⟩, rfl, rfl⟩

/-- A run that finds the service down leaves the same disk as the one that finds all well; and a
check with a token alerts as the one without. -/
theorem watch_apart_onlyMetrics :
    (WatchAlike Probe.besideIt guarded Probe.allWell onlyMetrics ∧
      Probe.allWell.Runs Probe.besideIt Disk.Performs ⟨[], []⟩ Probe.firstWell.1
        Probe.firstWell.2 ∧
      Probe.firstWell.1.report.exitCode = 0 ∧
      (∃ outcome, onlyMetrics.Runs guarded Disk.Performs ⟨[], []⟩ outcome Probe.firstWell.2 ∧
        outcome.report.exitCode = 2) ∧
      ∀ outcome after, onlyMetrics.Runs guarded Disk.Performs ⟨[], []⟩ outcome after →
        after = Probe.firstWell.2 ∧ Probe.firstWell.1.IsAlike outcome) ∧
    AnswersAlike Silent Probe.besideIt none (some "secret") ∧
      ∃ (ending : Ending) (after : Disk) (rest : List Request),
        (check { Probe.besideIt with authToken := none } 1 .text true).Ends (Logged Silent)
          (⟨[], []⟩, []) ending (after, firstRequests Probe.besideIt none ++ rest) ∧
        (check { Probe.besideIt with authToken := some "secret" } 1 .text true).Ends
          (Logged Silent) (⟨[], []⟩, []) ending
          (after, firstRequests Probe.besideIt (some "secret") ++ rest) := by
  obtain ⟨hwatch, -, -, hcheck⟩ := watch_apart_from_checks
  have halike : WatchAlike Probe.besideIt guarded Probe.allWell onlyMetrics :=
    ⟨rfl, rfl, rfl, rfl, rfl⟩
  have hwell : Probe.allWell.Runs Probe.besideIt Disk.Performs ⟨[], []⟩ Probe.firstWell.1
      Probe.firstWell.2 :=
    Scene.runs_perform (fun _ _ => rfl) _ _ _
  obtain ⟨⟨outcome, hruns, -⟩, hall⟩ := hwatch _ _ _ _ _ _ _ _ _ halike hwell
  have hinactive : .serviceInactive "other" "failed" ∈ outcome.report.outages :=
    (hruns.mem_outages_iff _).mpr ⟨by decide, rfl, Or.inl rfl⟩
  have hsilent : AnswersAlike Silent Probe.besideIt none (some "secret") := fun _ _ _ =>
    (ends_meet_silent_iff (by decide +kernel)).trans (ends_meet_silent_iff (by decide +kernel)).symm
  obtain ⟨ending, ⟨after, requests⟩, hends⟩ : ∃ ending left,
      (check { Probe.besideIt with authToken := none } 1 .text true).Ends (Logged Silent)
        (⟨[], []⟩, []) ending left :=
    ⟨_, _, Plan.ends_run (Plan.logged_logging silent_silence) _ _⟩
  obtain ⟨rest, rfl, hother⟩ := hcheck _ _ _ _ _ _ _ _ _ _ _ _ hsilent hends
  exact ⟨⟨halike, hwell, by decide +kernel,
    ⟨outcome, hruns, outcome.report.exitCode_eq_two_iff.mpr ⟨_, hinactive⟩⟩,
    hall Disk.isDetermined_performs⟩, hsilent, ending, after, rest, hends, hother⟩

end ServiceWatch.CommandLine
