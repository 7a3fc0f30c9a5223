import ServiceWatch.Proofs.CommandLine.Check
import ServiceWatch.Proofs.Probe.Report

/-!
# What a check requests, and when it alerts

A check asks for the time and puts the questions of its run to the process manager and to the
endpoints; then it acts on files, and at last it runs the alert command or does not.  What it comes
to is the run in the scene that its surroundings answer, and what it requests of them is known from
the settings, the actions on files and the report (`ends_check_logged_iff`).

The exit code decides the alert.  With the exit code zero nothing is requested behind the run;
otherwise one command is, which gets the title and the body of the alert (`ends_sendAlert_iff`).
-/

namespace ServiceWatch.CommandLine

open Plan (Behaviour Logged Through)
open Probe (Scene questions)

variable {τ : Type} {allows : Behaviour system τ} {settings : Settings} {process : ℕ} {form : Form}
  {sendsAlert : Bool} {timeout : Duration} {report : Report} {outcome : Probe.Outcome}
  {before after : τ} {ending : Ending} {earlier later requests : List Request} {now : UInt64}

/-! ### The alert -/

/-- The command that delivers the alert for a report. -/
def alertOf (settings : Settings) (report : Report) : Command :=
  ⟨settings.alertCommand, [settings.alertTitle, report.alertBody]⟩

/-- **The exit code decides the alert.**  Where it is zero nothing is requested, and otherwise one
command with the title and the body of the alert. -/
theorem ends_sendAlert_iff :
    (sendAlert settings timeout report).Ends (Logged allows) (before, earlier) () (after, later) ↔
      report.exitCode = 0 ∧ after = before ∧ later = earlier ∨
        report.exitCode ≠ 0 ∧
          (∃ reply, allows before (.command (alertOf settings report) timeout) reply after) ∧
          later = earlier ++ [.command (alertOf settings report) timeout] := by
  unfold sendAlert Alert.message?
  by_cases hzero : report.exitCode = 0
  · rw [if_pos (report.isHealthy_iff.mpr hzero)]
    refine Plan.ends_logged_done_iff.trans ⟨?_, ?_⟩
    · rintro ⟨⟨-, hafter⟩, hlater⟩
      exact Or.inl ⟨hzero, hafter, hlater⟩
    · rintro (⟨-, hafter, hlater⟩ | ⟨hcode, -⟩)
      · exact ⟨⟨rfl, hafter⟩, hlater⟩
      · exact absurd hzero hcode
  · rw [if_neg (fun hhealthy => hzero (report.isHealthy_iff.mp hhealthy))]
    refine Plan.ends_logged_ask_iff.trans ⟨?_, ?_⟩
    · rintro ⟨⟨reply, _, hreply, -, rfl⟩, hlog⟩
      exact Or.inr ⟨hzero, ⟨reply, hreply⟩, hlog⟩
    · rintro (⟨hcode, -⟩ | ⟨-, ⟨reply, hreply⟩, hlog⟩)
      · exact absurd hcode hzero
      · exact ⟨⟨reply, after, hreply, rfl, rfl⟩, hlog⟩

/-- What is requested behind a run: the alert command, once, if an alert is to be sent and the exit
code is not zero, and nothing otherwise. -/
def IsAlerted (allows : Behaviour system τ) (settings : Settings) (sendsAlert : Bool)
    (report : Report) (before : τ) (alerts : List Request) (after : τ) : Prop :=
  (sendsAlert = false ∨ report.exitCode = 0) ∧ after = before ∧ alerts = [] ∨
    (sendsAlert = true ∧ report.exitCode ≠ 0) ∧
      (∃ reply, allows before (.command (alertOf settings report) (limit settings)) reply after) ∧
      alerts = [.command (alertOf settings report) (limit settings)]

theorem ends_alert_iff :
    (alert settings sendsAlert report).Ends (Logged allows) (before, earlier) () (after, later) ↔
      ∃ alerts, IsAlerted allows settings sendsAlert report before alerts after ∧
        later = earlier ++ alerts := by
  cases sendsAlert with
  | true =>
      refine ends_sendAlert_iff.trans ⟨?_, ?_⟩
      · rintro (⟨hzero, hafter, rfl⟩ | ⟨hcode, hreply, rfl⟩)
        · exact ⟨[], Or.inl ⟨Or.inr hzero, hafter, rfl⟩, (List.append_nil _).symm⟩
        · exact ⟨_, Or.inr ⟨⟨rfl, hcode⟩, hreply, rfl⟩, rfl⟩
      · rintro ⟨_, (⟨hdue, hafter, rfl⟩ | ⟨⟨-, hcode⟩, hreply, rfl⟩), rfl⟩
        · exact Or.inl ⟨hdue.resolve_left (by simp), hafter, List.append_nil _⟩
        · exact Or.inr ⟨hcode, hreply, rfl⟩
  | false =>
      refine Plan.ends_logged_done_iff.trans ⟨?_, ?_⟩
      · rintro ⟨⟨-, hafter⟩, hlater⟩
        exact ⟨[], Or.inl ⟨Or.inl rfl, hafter, rfl⟩, hlater.trans (List.append_nil _).symm⟩
      · rintro ⟨_, (⟨-, hafter, rfl⟩ | ⟨⟨⟨⟩, -⟩, -⟩), hlater⟩
        exact ⟨⟨rfl, hafter⟩, hlater.trans (List.append_nil _)⟩

/-! ### The questions -/

/-- What surroundings of the program allow to actions on files. -/
def FilesIn (allows : Behaviour system τ) : Behaviour Disk.files τ :=
  fun before action reply after => allows before (.file action) reply after

/-- The calls that are made to ask the endpoint at a URL: there is none where the URL is bad. -/
def callsFor (url : String) (token : Option String) : List Http.Call :=
  (Http.call url token).toOption.toList

/-- What is requested to meet a request of the probe. -/
def requestsFor (timeout : Duration) : Probe.Request → List Request
  | .state service => [.command (ServiceState.question manager service) timeout]
  | .answer url token => (callsFor url token).map (.call · timeout)
  | .file action => [.file action]

theorem meet_of_no_call {url : String} {token : Option String} {fault : Http.CallFault}
    (hcall : Http.call url token = .error fault) :
    meet timeout (.answer url token) = .done (.unreachable fault.message) := by
  simp only [meet, hcall]

theorem meet_of_call {url : String} {token : Option String} {call : Http.Call}
    (hcall : Http.call url token = .ok call) :
    meet timeout (.answer url token) =
      .ask (I := system) (.call call timeout) fun exchange =>
        .done (call.conclude timeout exchange) := by
  simp only [meet, hcall]
  rfl

theorem ends_meet_logged_iff {request : Probe.Request} {reply : request.Reply}
    {before after : τ × List Request} :
    (meet timeout request).Ends (Logged allows) before reply after ↔
      (meet timeout request).Ends allows before.1 reply after.1 ∧
        after.2 = before.2 ++ requestsFor timeout request := by
  cases request with
  | state service => exact Plan.ends_logged_ask_iff
  | file action => exact Plan.ends_logged_ask_iff
  | answer url token =>
      cases hcall : Http.call url token with
      | error fault =>
          have hnone : requestsFor timeout (.answer url token) = [] := by
            simp [requestsFor, callsFor, hcall, Except.toOption]
          rw [meet_of_no_call hcall, hnone, List.append_nil]
          exact Plan.ends_logged_done_iff
      | ok call =>
          have hone : requestsFor timeout (.answer url token) = [.call call timeout] := by
            simp [requestsFor, callsFor, hcall, Except.toOption]
          rw [meet_of_call hcall, hone]
          exact Plan.ends_logged_ask_iff

/-- What the program requests for the questions of a run. -/
def questionsFor (settings : Settings) : List Request :=
  .command (ServiceState.question manager settings.service) (limit settings) ::
    (callsFor settings.healthUrl settings.token? ++ callsFor settings.metricsUrl none).map
      (.call · (limit settings))

theorem flatMap_requestsFor (actions : List Disk.Action) :
    (questions settings ++ actions.map Probe.Request.file).flatMap (requestsFor (limit settings)) =
      questionsFor settings ++ actions.map .file := by
  rw [List.flatMap_append, List.flatMap_map, List.map_eq_flatMap]
  simp [questions, questionsFor, requestsFor]

/-- The surroundings of the program answer the questions of a run as in the scene. -/
def Answers (allows : Behaviour system τ) (settings : Settings) (scene : Scene)
    (before after : τ) : Prop :=
  scene.IsAnswered (Through (meet (limit settings)) allows) settings before after

/-- **The probe of the program is the run in the scene that its surroundings answer.** -/
theorem ends_probe_logged_iff :
    (probe settings process now).Ends (Logged allows) (before, earlier) outcome (after, later) ↔
      ∃ (scene : Scene) (asked : τ) (actions : List Disk.Action),
        scene.process = process ∧ scene.now = now ∧ Answers allows settings scene before asked ∧
        scene.Runs settings (Logged (FilesIn allows)) (asked, []) outcome (after, actions) ∧
        later = earlier ++ (questionsFor settings ++ actions.map .file) := by
  have hfiles : Probe.FilesIn (Through (meet (limit settings)) allows) = FilesIn allows := by
    funext before action reply after
    exact propext Plan.ends_request
  refine (Plan.ends_refine_logged_iff fun _ _ _ _ => ends_meet_logged_iff).trans ⟨?_, ?_⟩
  · rintro ⟨asked, hends, rfl⟩
    obtain ⟨scene, between, actions, hprocess, hnow, hanswered, hruns, rfl⟩ :=
      Probe.ends_run_logged_iff.mp hends
    rw [hfiles] at hruns
    exact ⟨scene, between, actions, hprocess, hnow, hanswered, hruns,
      congrArg (earlier ++ ·) (flatMap_requestsFor actions)⟩
  · rintro ⟨scene, between, actions, hprocess, hnow, hanswered, hruns, rfl⟩
    rw [← hfiles] at hruns
    have hends := Probe.ends_run_logged_iff.mpr
      ⟨scene, between, actions, hprocess, hnow, hanswered, hruns, (List.nil_append _).symm⟩
    exact ⟨_, hends, congrArg (earlier ++ ·) (flatMap_requestsFor actions).symm⟩

/-! ### The whole check -/

/-- **What a check comes to, and what it requests.** -/
theorem ends_check_logged_iff :
    (check settings process form sendsAlert).Ends (Logged allows) (before, []) ending
        (after, requests) ↔
      ∃ (scene : Scene) (outcome : Probe.Outcome) (started asked probed : τ)
          (actions : List Disk.Action) (alerts : List Request),
        scene.process = process ∧ allows before .now scene.now started ∧
        Answers allows settings scene started asked ∧
        scene.Runs settings (Logged (FilesIn allows)) (asked, []) outcome (probed, actions) ∧
        IsAlerted allows settings sendsAlert outcome.report probed alerts after ∧
        ending = .finished outcome.report.exitCode (written form outcome) ∧
        requests = .now :: (questionsFor settings ++ actions.map .file ++ alerts) := by
  rw [ends_check_iff]
  constructor
  · rintro ⟨now, ⟨started, _⟩, outcome, ⟨probed, log⟩, ⟨hnow, rfl⟩, hprobe, halert, rfl⟩
    obtain ⟨scene, asked, actions, hprocess, rfl, hanswers, hruns, rfl⟩ :=
      ends_probe_logged_iff.mp hprobe
    obtain ⟨alerts, halerted, rfl⟩ := ends_alert_iff.mp halert
    exact ⟨scene, outcome, started, asked, probed, actions, alerts, hprocess, hnow, hanswers, hruns,
      halerted, rfl, rfl⟩
  · rintro ⟨scene, outcome, started, asked, probed, actions, alerts, hprocess, hnow, hanswers,
      hruns, halerted, rfl, rfl⟩
    have hprobe : (probe settings process scene.now).Ends (Logged allows) (started, [.now]) outcome
        (probed, [.now] ++ (questionsFor settings ++ actions.map .file)) :=
      ends_probe_logged_iff.mpr ⟨scene, asked, actions, hprocess, rfl, hanswers, hruns, rfl⟩
    exact ⟨scene.now, (started, [.now]), outcome, _, ⟨hnow, rfl⟩, hprobe,
      ends_alert_iff.mpr ⟨alerts, halerted, rfl⟩, rfl⟩

/-- **The report of a run is exact, and decides the exit code and the alert.**  In every scene a run
comes to an end if the files reply.  It asks for the memory and is replied `reply`; from that and
from the scrape comes its judgement, and with it its attempt to save.  Its report has the outages of
the scene and its concerns and no others, each once and in order, and the exit code is 2 if there is
an outage, 1 if there are concerns only and 0 if there is neither.

To send an alert is to request one command with the title and the body for the report if the exit
code is not zero, and nothing if it is.  A check ends with the exit code of the run in the scene
that its surroundings answer.  Behind the questions and the actions on files it requests that alert,
if it is told to alert and the exit code is not zero, and nothing otherwise. -/
theorem report_decides :
    (∀ {σ : Type} {allows : Behaviour Disk.files σ} (scene : Scene) (settings : Settings)
        (before : σ),
      (∀ files action, ∃ reply next, allows files action reply next) →
        ∃ outcome after, scene.Runs settings allows before outcome after) ∧
    (∀ {σ : Type} {allows : Behaviour Disk.files σ} {scene : Scene} {settings : Settings}
        {before after : σ} {outcome : Probe.Outcome},
      scene.Runs settings allows before outcome after →
        ∃ reply between judgement attempt,
          allows before (.read settings.statePath) reply between ∧
          judgement = Stall.judge settings.stallThreshold scene.scrape
            (Store.Loaded.ofOutcome (Store.ofContent settings.statePath reply)).memory scene.now ∧
          Probe.Attempts allows settings.statePath scene.process judgement.next between attempt
            after ∧
          outcome.verdict = judgement.verdict ∧
          outcome.report.IsExact (scene.IsDown settings.service)
            (scene.IsConcerned settings.statePath reply judgement.verdict attempt)) ∧
    (∀ {τ : Type} {allows : Behaviour system τ} {settings : Settings} {timeout : Duration}
        {report : Report} {before after : τ} {earlier later : List Request},
      (sendAlert settings timeout report).Ends (Logged allows) (before, earlier) ()
          (after, later) ↔
        report.exitCode = 0 ∧ after = before ∧ later = earlier ∨
          report.exitCode ≠ 0 ∧
            (∃ reply, allows before (.command (alertOf settings report) timeout) reply after) ∧
            later = earlier ++ [.command (alertOf settings report) timeout]) ∧
    ∀ {τ : Type} {allows : Behaviour system τ} {settings : Settings} {process : ℕ} {form : Form}
        {sendsAlert : Bool} {before after : τ} {ending : Ending} {requests : List Request},
      (check settings process form sendsAlert).Ends (Logged allows) (before, []) ending
          (after, requests) ↔
        ∃ (scene : Scene) (outcome : Probe.Outcome) (started asked probed : τ)
            (actions : List Disk.Action) (alerts : List Request),
          scene.process = process ∧ allows before .now scene.now started ∧
          Answers allows settings scene started asked ∧
          scene.Runs settings (Logged (FilesIn allows)) (asked, []) outcome (probed, actions) ∧
          IsAlerted allows settings sendsAlert outcome.report probed alerts after ∧
          ending = .finished outcome.report.exitCode (written form outcome) ∧
          requests = .now :: (questionsFor settings ++ actions.map .file ++ alerts) := by
  refine ⟨?_, ?_, ends_sendAlert_iff, ends_check_logged_iff⟩
  · intro σ allows scene settings before htotal
    exact Scene.exists_runs htotal scene settings before
  · intro σ allows scene settings before after outcome hruns
    exact hruns.isExact

/-- A service that has failed while its endpoints still answer. -/
def failedService : Scene where
  state := .inactive "failed"
  health := .response 200 ""
  metrics := .response 200 "finality_events_total 7\n"
  process := 1
  now := 100

/-- On a disk with a memory that was cut short, the run for a failed service reports it; and where
nothing answers, the last that a check requests is the alert command. -/
theorem report_decides_failed :
    (∃ outcome after,
      failedService.Runs { Settings.defaults with statePath := "state.json" } Disk.Allows
        ⟨[(["state.json"], .file [0x7B] false)], []⟩ outcome after ∧
      .serviceInactive "powerhouse-boot" "failed" ∈ outcome.report.outages ∧
      outcome.report.exitCode = 2) ∧
    ∃ ending after requests,
      (check .defaults 1 .text true).Ends (Logged Silent) (⟨[], []⟩, []) ending
          (after, requests) ∧
        ending.exitCode = 2 ∧
        ∃ (front : List Request) (report : Report), report.exitCode = 2 ∧
          requests = front ++ [.command ⟨"/usr/local/lib/vigil/alert.sh",
            ["vigil healthcheck", report.alertBody]⟩ (.ofSeconds 5)] := by
  obtain ⟨htotal, hexact, -, hcheck⟩ := report_decides
  constructor
  · obtain ⟨outcome, after, hruns⟩ := htotal failedService
      { Settings.defaults with statePath := "state.json" }
      ⟨[(["state.json"], .file [0x7B] false)], []⟩
      fun disk action => ⟨_, _, Disk.allows_perform disk action⟩
    obtain ⟨reply, between, judgement, attempt, -, -, -, -, hreport⟩ := hexact hruns
    have hinactive : failedService.IsDown "powerhouse-boot"
        (.serviceInactive "powerhouse-boot" "failed") := ⟨by decide, rfl, Or.inl rfl⟩
    exact ⟨outcome, after, hruns, (hreport.mem_outages _).mpr hinactive,
      hreport.exitCode_two.mpr ⟨_, hinactive⟩⟩
  · obtain ⟨ending, ⟨after, requests⟩, hends, hcode⟩ : ∃ ending left,
        (check .defaults 1 .text true).Ends (Logged Silent) (⟨[], []⟩, []) ending left ∧
          ending.exitCode = 2 :=
      ⟨_, _, Plan.ends_run (Plan.logged_logging silent_silence) _ _, by decide +kernel⟩
    obtain ⟨scene, outcome, _, _, probed, actions, _, -, -, -, -, halerted, rfl, hrequests⟩ :=
      hcheck.mp hends
    obtain ⟨hnone | hzero, -⟩ | ⟨-, -, rfl⟩ := halerted
    · exact absurd hnone (by simp)
    · exact absurd (hzero.symm.trans hcode) (by decide)
    · exact ⟨_, after, requests, hends, hcode,
        .now :: (questionsFor .defaults ++ actions.map Request.file), outcome.report, hcode,
        hrequests⟩

end ServiceWatch.CommandLine
