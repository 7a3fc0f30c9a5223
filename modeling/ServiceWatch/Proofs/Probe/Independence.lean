import ServiceWatch.Proofs.Probe.Run

/-!
# What the watch over the counter does not depend on

A run makes three checks and watches the counter.  The watch takes the metrics answer and the file;
whether the service runs and what the health endpoint answers make no difference to it, and neither
does anything in the settings but the path of the file and the threshold.  Two runs that agree on
what the watch takes therefore come to the same verdict, the same files and the same concerns, and
may differ in their outages alone (`Scene.Runs.alike`).

The questions of a run do not depend on the answers.  The token is in one of them, the one to the
health endpoint, and in nothing else that a run does: with another token every run comes to the very
same outcome (`Scene.runs_withToken_iff`).

This is said for any surroundings.  Where the replies of the files are not determined, every ending
of one run is matched by one of the other; where they are, there is one ending.
-/

namespace ServiceWatch.Probe

open Plan (Behaviour IsDetermined)

variable {σ : Type} {allows : Behaviour Disk.files σ} {before after : σ}
  {settings others : Settings} {scene other : Scene} {outcome : Outcome}

/-! ### Two runs -/

/-- The two runs take the same for the watch over the counter.  They are runs of one process, whose
number is in the name of its draft. -/
structure WatchAlike (settings others : Settings) (scene other : Scene) : Prop where
  statePath : others.statePath = settings.statePath
  stallMinutes : others.stallMinutes = settings.stallMinutes
  metrics : other.metrics = scene.metrics
  process : other.process = scene.process
  now : other.now = scene.now

/-- The outcomes differ in their outages at most. -/
structure Outcome.IsAlike (outcome different : Outcome) : Prop where
  verdict : different.verdict = outcome.verdict
  isSaved : different.isSaved = outcome.isSaved
  concerns : different.report.concerns = outcome.report.concerns

/-- **Whatever one run comes to, the other may come to as well**, but for the outages. -/
theorem Scene.Runs.alike (hruns : scene.Runs settings allows before outcome after)
    (halike : WatchAlike settings others scene other) :
    ∃ different, other.Runs others allows before different after ∧ outcome.IsAlike different := by
  obtain ⟨watched, hwatch, rfl⟩ := Scene.runs_iff.mp hruns
  have hscrape : other.scrape = scene.scrape := by rw [Scene.scrape, Scene.scrape, halike.metrics]
  have hthreshold : others.stallThreshold = settings.stallThreshold := by
    rw [Settings.stallThreshold, Settings.stallThreshold, halike.stallMinutes]
  refine ⟨_, Scene.runs_iff.mpr ⟨watched, ?_, rfl⟩, rfl, rfl, ?_⟩
  · rwa [halike.statePath, hthreshold, halike.process, hscrape, halike.now]
  · rw [hscrape, halike.metrics]
    rfl

theorem Scene.Runs.unique (hdetermined : IsDetermined allows)
    (hruns : scene.Runs settings allows before outcome after) {different : Outcome} {otherwise : σ}
    (hother : scene.Runs settings allows before different otherwise) :
    different = outcome ∧ otherwise = after := by
  obtain ⟨watched, hwatch, rfl⟩ := Scene.runs_iff.mp hruns
  obtain ⟨watched', hwatch', rfl⟩ := Scene.runs_iff.mp hother
  obtain ⟨rfl, rfl⟩ := hwatch.unique hdetermined hwatch'
  exact ⟨rfl, rfl⟩

theorem Scene.runs_withToken_iff (token : Option String) :
    scene.Runs { settings with authToken := token } allows before outcome after ↔
      scene.Runs settings allows before outcome after := by
  rw [Scene.runs_iff, Scene.runs_iff]
  rfl

theorem Scene.isAnswered_withToken_iff {answers : Behaviour surroundings σ}
    {first second : Option String}
    (hsame : ∀ before answer after,
      answers before (.answer settings.healthUrl { settings with authToken := first }.token?) answer
          after ↔
        answers before (.answer settings.healthUrl { settings with authToken := second }.token?)
          answer after) :
    scene.IsAnswered answers { settings with authToken := first } before after ↔
      scene.IsAnswered answers { settings with authToken := second } before after := by
  unfold IsAnswered
  simp only [hsame]

end ServiceWatch.Probe
