import ServiceWatch.Proofs.Endpoint
import ServiceWatch.Proofs.Metrics.Scrape
import ServiceWatch.Proofs.Probe.Run
import ServiceWatch.Proofs.Report

/-!
# The report of a run is exact

What a run reports is said here without the functions that make the report: `Scene.IsDown` tells
which outages there are, by what the process manager and the two endpoints answered, and
`Scene.IsConcerned` which concerns, by the lines of the metrics answer, the verdict, the reply to
the request for the memory and the attempt to save the next one.  The report of every run has these
entries and no others, each once and in order, whatever the files do.

## Strategy

The two lists of a report are put together from pieces, one for each check.  Membership is read off
piece by piece, and each piece has the next places only, so the places of a list are a sublist of
the places in order.
-/

namespace ServiceWatch

open scoped List

namespace Probe

/-! ### What there is to report -/

/-- The outages of a scene. -/
def Scene.IsDown (scene : Scene) (service : String) : Outage → Prop
  | .processQuery program reason => scene.state = .queryFailed program reason
  | .serviceInactive name word =>
    scene.state ≠ .active ∧ name = service ∧
      (scene.state = .inactive word ∨
        (∀ text, scene.state ≠ .inactive text) ∧ word = "unknown")
  | .healthEndpoint failure => scene.health.FailsWith failure
  | .metricsEndpoint failure => scene.metrics.FailsWith failure

/-- The memory cannot be read: the request for it was refused, and not because there is no file, or
the content is no document of a memory. -/
def IsUnreadable (path : String) (reply : Except SystemError (List UInt8)) (reason : String) :
    Prop :=
  (∃ refusal, reply = .error refusal ∧ refusal ≠ .notFound ∧
      reason = (Store.Fault.read path refusal).message) ∨
    ∃ content failure, reply = .ok content ∧ Memory.ofDocument content = .error failure ∧
      reason = (Store.Fault.undecodable (failure.message content)).message

/-- The concerns of a scene, with the reply to the request for the memory, the verdict, and the
attempt to save. -/
def Scene.IsConcerned (scene : Scene) (path : String) (reply : Except SystemError (List UInt8))
    (verdict : Stall.Verdict) (attempt : Option (Except Store.Fault Unit)) : Concern → Prop
  | .missingSeries series =>
    series ∈ seriesInOrder ∧ ∃ body, scene.metrics = .response 200 body ∧
      ∀ line ∈ Text.lines body.toList, ∀ value, Metrics.ofLine? line ≠ some (series, value)
  | .stalled counter elapsed => counter = "finality_events_total" ∧ verdict = .stalled elapsed
  | .memoryUnreadable reason => IsUnreadable path reply reason
  | .memoryNotSaved reason => ∃ fault, attempt = some (.error fault) ∧ reason = fault.message

variable {scene : Scene} {service path : String} {watched : Watch} {verdict : Stall.Verdict}
  {reply : Except SystemError (List UInt8)} {attempt : Option (Except Store.Fault Unit)}

/-! ### The entries -/

/-- A service that does not run is told with the word for its state. -/
theorem Scene.isDown_serviceInactive_iff {name word : String} :
    scene.IsDown service (.serviceInactive name word) ↔
      scene.state ≠ .active ∧ name = service ∧ word = scene.state.word := by
  cases hstate : scene.state <;> simp [Scene.IsDown, hstate, ServiceState.word, eq_comm]

theorem mem_outages_iff (outage : Outage) :
    outage ∈ (conclude service scene.state scene.health scene.metrics scene.scrape
        watched).report.outages ↔ scene.IsDown service outage := by
  simp only [conclude, Findings.report, Findings.serviceOutages, Findings.endpointOutages,
    List.mem_append, Option.mem_toList, Option.map_eq_some_iff, Answer.failure?_eq_some_iff]
  cases outage with
  | processQuery program reason =>
      cases hstate : scene.state <;>
        simp [Scene.IsDown, hstate, ServiceState.isActive, eq_comm]
  | serviceInactive name word =>
      rw [Scene.isDown_serviceInactive_iff]
      cases scene.state <;> simp [ServiceState.isActive]
  | healthEndpoint failure =>
      cases hstate : scene.state <;> simp [Scene.IsDown, ServiceState.isActive]
  | metricsEndpoint failure =>
      cases hstate : scene.state <;> simp [Scene.IsDown, ServiceState.isActive]

theorem mem_missing_iff (series : String) :
    series ∈ missing scene.scrape ↔
      series ∈ seriesInOrder ∧ ∃ body, scene.metrics = .response 200 body ∧
        ∀ line ∈ Text.lines body.toList, ∀ value,
          Metrics.ofLine? line ≠ some (series, value) := by
  unfold Scene.scrape
  cases hbody : scene.metrics.body? with
  | none =>
      have hnone : ∀ body, scene.metrics ≠ .response 200 body := by
        intro body hmetrics
        rw [Answer.body?_eq_some_iff.mpr hmetrics] at hbody
        exact absurd hbody (by simp)
      simp [missing, hnone]
  | some body =>
      have hmetrics := Answer.body?_eq_some_iff.mp hbody
      have hlines : (Scrape.ofText body).contains series = false ↔
          ∀ line ∈ Text.lines body.toList, ∀ value,
            Metrics.ofLine? line ≠ some (series, value) := by
        rw [← Bool.not_eq_true, Scrape.contains_ofText_iff]
        simp only [not_exists, not_and]
      have hrequired : requiredSeries = seriesInOrder := rfl
      simp [missing, Scrape.missing, hmetrics, hlines, hrequired]

/-- Without a scrape nothing is missing anyway. -/
theorem missing_of_failure (hfailure : scene.metrics.failure?.isSome = true) :
    missing scene.scrape = [] := by
  apply List.eq_nil_iff_forall_not_mem.mpr
  intro series hseries
  obtain ⟨-, body, hmetrics, -⟩ := mem_missing_iff series |>.mp hseries
  rw [Answer.failure?_eq_none_iff.mpr ⟨body, hmetrics⟩] at hfailure
  exact absurd hfailure (by simp)

/-- What reading the memory gives raises a concern exactly when the memory cannot be read. -/
theorem concern_ofContent_iff (concern : Concern) :
    (Store.Loaded.ofOutcome (Store.ofContent path reply)).concern = some concern ↔
      ∃ reason, concern = .memoryUnreadable reason ∧ IsUnreadable path reply reason := by
  cases reply with
  | error refusal =>
      by_cases habsent : refusal = .notFound
      · subst habsent
        simp [Store.ofContent, Store.Loaded.ofOutcome, IsUnreadable]
      · simp [Store.ofContent_error habsent, Store.Loaded.ofOutcome, IsUnreadable, habsent, eq_comm]
  | ok content =>
      cases hdocument : Memory.ofDocument content with
      | ok memory =>
          simp [Store.ofContent, Store.decode, hdocument, Except.map, Store.Loaded.ofOutcome,
            IsUnreadable]
      | error failure =>
          simp [Store.ofContent, Store.decode, hdocument, Except.map, Store.Loaded.ofOutcome,
            IsUnreadable, eq_comm]

/-- The concerns of a run, check by check. -/
theorem concerns_conclude (verdict : Stall.Verdict) (loaded : Store.Loaded)
    (attempt : Option (Except Store.Fault Unit)) :
    (conclude service scene.state scene.health scene.metrics scene.scrape
        (.conclude verdict loaded attempt)).report.concerns =
      (missing scene.scrape).map .missingSeries ++
        (match verdict with
          | .stalled elapsed => [.stalled finalitySeries elapsed]
          | _ => []) ++
        loaded.concern.toList ++
        (match attempt with
          | some (.error fault) => [.memoryNotSaved fault.message]
          | _ => []) := by
  have hseries : (if scene.metrics.failure?.isSome then []
      else (missing scene.scrape).map Concern.missingSeries) =
      (missing scene.scrape).map .missingSeries := by
    by_cases hfailure : scene.metrics.failure?.isSome = true
    · rw [if_pos hfailure, missing_of_failure hfailure]
      rfl
    · rw [if_neg hfailure]
  -- what is left are the checks one behind the other, for each verdict and each attempt
  simp only [conclude, Findings.report, Findings.seriesConcerns, Findings.stallConcerns, hseries]
  cases verdict <;> rcases attempt with _ | fault | done <;> simp [Watch.conclude]

theorem mem_concerns_iff (concern : Concern) :
    concern ∈ (conclude service scene.state scene.health scene.metrics scene.scrape
        (.conclude verdict (.ofOutcome (Store.ofContent path reply)) attempt)).report.concerns ↔
      scene.IsConcerned path reply verdict attempt concern := by
  rw [concerns_conclude]
  simp only [List.mem_append, Option.mem_toList, List.mem_map, mem_missing_iff,
    concern_ofContent_iff]
  cases concern with
  | missingSeries series =>
      cases verdict <;> rcases attempt with _ | fault | done <;> simp [Scene.IsConcerned]
  | stalled counter elapsed =>
      cases verdict <;> rcases attempt with _ | fault | done <;>
        simp [Scene.IsConcerned, finalitySeries, eq_comm]
  | memoryUnreadable reason =>
      cases verdict <;> rcases attempt with _ | fault | done <;> simp [Scene.IsConcerned]
  | memoryNotSaved reason =>
      cases verdict <;> rcases attempt with _ | fault | done <;> simp [Scene.IsConcerned]

/-! ### Their order -/

theorem places_outages (findings : Findings) :
    findings.report.outages.map Outage.place <+ [0, 1, 2, 3] := by
  have hservice : findings.serviceOutages.map Outage.place <+ [0, 1] := by
    unfold Findings.serviceOutages
    cases findings.state <;> simp [ServiceState.isActive, Outage.place]
  have hhealth : (findings.health.failure?.map Outage.healthEndpoint).toList.map Outage.place <+
      [2] := by
    cases findings.health.failure? <;> simp [Outage.place]
  have hmetrics : (findings.metrics.failure?.map Outage.metricsEndpoint).toList.map
      Outage.place <+ [3] := by
    cases findings.metrics.failure? <;> simp [Outage.place]
  rw [Findings.report, List.map_append, Findings.endpointOutages, List.map_append]
  exact hservice.append (hhealth.append hmetrics)

theorem places_missing (scrape : Option Scrape) :
    ((missing scrape).map Concern.missingSeries).map Concern.place <+ [0, 1, 2] := by
  cases scrape with
  | none => exact List.nil_sublist _
  | some scrape => exact (List.filter_sublist.map _).map _

theorem places_concerns (verdict : Stall.Verdict) (outcome : Except Store.Fault (Option Memory))
    (attempt : Option (Except Store.Fault Unit)) :
    (conclude service scene.state scene.health scene.metrics scene.scrape
      (.conclude verdict (.ofOutcome outcome) attempt)).report.concerns.map Concern.place <+
      [0, 1, 2, 3, 4, 5] := by
  have hstall : (match verdict with
      | .stalled elapsed => [Concern.stalled finalitySeries elapsed]
      | _ => []).map Concern.place <+ [3] := by
    cases verdict <;> simp [Concern.place]
  have hread : (Store.Loaded.ofOutcome outcome).concern.toList.map Concern.place <+ [4] := by
    cases outcome <;> simp [Store.Loaded.ofOutcome, Concern.place]
  have hsave : (match attempt with
      | some (.error fault) => [Concern.memoryNotSaved fault.message]
      | _ => []).map Concern.place <+ [5] := by
    rcases attempt with _ | fault | done <;> simp [Concern.place]
  rw [concerns_conclude, List.map_append, List.map_append, List.map_append]
  exact (((places_missing _).append hstall).append hread).append hsave

theorem inOrder_conclude (verdict : Stall.Verdict)
    (outcome : Except Store.Fault (Option Memory))
    (attempt : Option (Except Store.Fault Unit)) :
    (conclude service scene.state scene.health scene.metrics scene.scrape
      (.conclude verdict (.ofOutcome outcome) attempt)).report.InOrder where
  outages := List.pairwise_map.mp (List.Pairwise.sublist (places_outages _) (by decide))
  concerns := List.pairwise_map.mp (List.Pairwise.sublist (places_concerns _ _ _) (by decide))

/-! ### The whole report -/

/-- What the outcome of a run tells: the verdict, whether it saved, and the concerns. -/
theorem Scene.Runs.concludes {σ : Type} {allows : Plan.Behaviour Disk.files σ} {before after : σ}
    {settings : Settings} {outcome : Outcome}
    (hruns : scene.Runs settings allows before outcome after) :
    ∃ reply between judgement attempt,
      allows before (.read settings.statePath) reply between ∧
      judgement = Stall.judge settings.stallThreshold scene.scrape
        (Store.Loaded.ofOutcome (Store.ofContent settings.statePath reply)).memory scene.now ∧
      Attempts allows settings.statePath scene.process judgement.next between attempt after ∧
      outcome.verdict = judgement.verdict ∧
      (outcome.isSaved = true ↔ attempt = some (.ok ())) ∧
      ∀ concern, concern ∈ outcome.report.concerns ↔
        scene.IsConcerned settings.statePath reply judgement.verdict attempt concern := by
  obtain ⟨watched, hwatch, rfl⟩ := Scene.runs_iff.mp hruns
  obtain ⟨reply, between, attempt, loaded, judgement, hreply, rfl, hjudgement, hattempt, rfl⟩ :=
    ends_watch_iff.mp hwatch
  refine ⟨reply, between, judgement, attempt, hreply, hjudgement, hattempt, ?_, ?_,
    mem_concerns_iff⟩
  · rcases attempt with _ | fault | done <;> rfl
  · rcases attempt with _ | fault | done <;> simp [conclude, Watch.conclude]

/-- The outages that a run reports are those of its scene. -/
theorem Scene.Runs.mem_outages_iff {σ : Type} {allows : Plan.Behaviour Disk.files σ}
    {before after : σ} {settings : Settings} {outcome : Outcome}
    (hruns : scene.Runs settings allows before outcome after) (outage : Outage) :
    outage ∈ outcome.report.outages ↔ scene.IsDown settings.service outage := by
  obtain ⟨watched, -, rfl⟩ := Scene.runs_iff.mp hruns
  exact Probe.mem_outages_iff outage

/-- The entries of a report stand in the order of the checks. -/
theorem Scene.Runs.inOrder {σ : Type} {allows : Plan.Behaviour Disk.files σ} {before after : σ}
    {settings : Settings} {outcome : Outcome}
    (hruns : scene.Runs settings allows before outcome after) : outcome.report.InOrder := by
  obtain ⟨watched, hwatch, rfl⟩ := Scene.runs_iff.mp hruns
  obtain ⟨reply, between, attempt, loaded, judgement, -, rfl, -, -, rfl⟩ :=
    ends_watch_iff.mp hwatch
  exact inOrder_conclude _ _ _

/-- **The report of every run is exact.**  The run asked for the memory and was replied `reply`;
from that and from the scrape comes the judgement, and with it the attempt to save.  The entries of
the report are then exactly the outages of the scene and its concerns. -/
theorem Scene.Runs.isExact {σ : Type} {allows : Plan.Behaviour Disk.files σ} {before after : σ}
    {settings : Settings} {outcome : Outcome}
    (hruns : scene.Runs settings allows before outcome after) :
    ∃ reply between judgement attempt,
      allows before (.read settings.statePath) reply between ∧
      judgement = Stall.judge settings.stallThreshold scene.scrape
        (Store.Loaded.ofOutcome (Store.ofContent settings.statePath reply)).memory scene.now ∧
      Attempts allows settings.statePath scene.process judgement.next between attempt after ∧
      outcome.verdict = judgement.verdict ∧
      outcome.report.IsExact (scene.IsDown settings.service)
        (scene.IsConcerned settings.statePath reply judgement.verdict attempt) := by
  obtain ⟨reply, between, judgement, attempt, hreply, hjudgement, hattempt, hverdict, -,
    hconcerned⟩ := hruns.concludes
  exact ⟨reply, between, judgement, attempt, hreply, hjudgement, hattempt, hverdict,
    hruns.inOrder.isExact hruns.mem_outages_iff hconcerned⟩

end Probe

end ServiceWatch
