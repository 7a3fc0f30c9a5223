import ServiceWatch.Proofs.Probe.History
import ServiceWatch.Proofs.Probe.Report

/-!
# When a run writes, and what

A scrape is usable when the metrics endpoint answered with success and a line of its answer gives a
series (`Scene.IsUsable`).  Only then is there something to judge.  A run without one reads what the
last run remembered and leaves every byte of the disk as it was; a run with one makes one attempt to
save, and tells in its outcome and in its report whether that worked (`Scene.runs_write`).

What a run requests is part of the statement, so its surroundings keep a record of that.
-/

namespace ServiceWatch.Probe

open Disk (MayFail)

variable {settings : Settings} {before after : Disk} {requests : List Disk.Action} {scene : Scene}
  {outcome : Outcome}

/-! ### Usable scrapes -/

/-- The metrics endpoint answered with success, and a line of its answer gives a series. -/
def Scene.IsUsable (scene : Scene) : Prop :=
  ∃ body, scene.metrics = .response 200 body ∧
    ∃ line ∈ Text.lines body.toList, (Metrics.ofLine? line).isSome = true

/-- What there is to judge is the scrape of a metrics answer in which a line gives a series. -/
theorem reading?_eq_some_iff {scrape : Scrape} :
    Stall.reading? (scene.scrape, scene.now) = some scrape ↔
      ∃ body, scene.metrics = .response 200 body ∧
        (∃ line ∈ Text.lines body.toList, (Metrics.ofLine? line).isSome = true) ∧
        scrape = Scrape.ofText body := by
  simp only [Stall.reading?, Option.filter_eq_some_iff, Scene.scrape, Option.map_eq_some_iff,
    Answer.body?_eq_some_iff, Bool.not_eq_true']
  constructor
  · rintro ⟨⟨body, hmetrics, rfl⟩, hfull⟩
    exact ⟨body, hmetrics, (Scrape.isEmpty_ofText_iff body).mp hfull, rfl⟩
  · rintro ⟨body, hmetrics, hline, rfl⟩
    exact ⟨⟨body, hmetrics, rfl⟩, (Scrape.isEmpty_ofText_iff body).mpr hline⟩

/-- There is something to judge exactly when the scrape is usable. -/
theorem exists_reading_iff :
    (∃ scrape, Stall.reading? (scene.scrape, scene.now) = some scrape) ↔ scene.IsUsable := by
  simp only [reading?_eq_some_iff]
  constructor
  · rintro ⟨scrape, body, hmetrics, hline, -⟩
    exact ⟨body, hmetrics, hline⟩
  · rintro ⟨body, hmetrics, hline⟩
    exact ⟨_, body, hmetrics, hline, rfl⟩

/-- With a usable scrape there is something to remember next, and it has the time of the run. -/
theorem judge_next_of_isUsable (husable : scene.IsUsable) (threshold : UInt64) (memory : Memory) :
    ∃ next, (Stall.judge threshold scene.scrape memory scene.now).next = some next ∧
      next.updated = some scene.now := by
  obtain ⟨scrape, hscrape⟩ := exists_reading_iff.mpr husable
  rw [Stall.judge_of_reading_eq_some hscrape threshold memory]
  exact ⟨_, rfl, rfl⟩

theorem judge_of_not_isUsable (hunusable : ¬ scene.IsUsable) (threshold : UInt64)
    (memory : Memory) :
    Stall.judge threshold scene.scrape memory scene.now = ⟨.unknown, none⟩ := by
  have hnone : Stall.reading? (scene.scrape, scene.now) = none := by
    rw [Option.eq_none_iff_forall_ne_some]
    intro scrape hscrape
    exact hunusable (exists_reading_iff.mp ⟨scrape, hscrape⟩)
  exact Stall.judge_of_reading_eq_none hnone threshold memory

/-! ### The whole run -/

/-- **A run writes exactly when its scrape is usable.**  Otherwise it reads the memory, changes
nothing and has nothing to tell about a stall or a save.  With a usable scrape it makes one attempt
to save a memory of its own time behind that; the outcome says whether it worked, and so does the
report, and when it worked the file is the document of that memory, while nothing else has changed
but the draft, which is gone, and the directories around the file that were made. -/
theorem Scene.runs_write
    (hruns : scene.Runs settings (Plan.Logged MayFail) (before, []) outcome (after, requests)) :
    (¬ scene.IsUsable →
      after = before ∧ requests = [.read settings.statePath] ∧ outcome.verdict = .unknown ∧
        outcome.isSaved = false ∧
        (∀ counter elapsed, .stalled counter elapsed ∉ outcome.report.concerns) ∧
        ∀ reason, .memoryNotSaved reason ∉ outcome.report.concerns) ∧
      (scene.IsUsable → ∃ memory saved,
        memory.updated = some scene.now ∧
        (Store.save settings.statePath scene.process memory).Ends (Plan.Logged MayFail)
          (before, [.read settings.statePath]) saved (after, requests) ∧
        (outcome.isSaved = true ↔ saved = .ok ()) ∧
        (outcome.isSaved = true ↔ ∀ reason, .memoryNotSaved reason ∉ outcome.report.concerns) ∧
        (saved = .ok () →
          after.read settings.statePath = .ok (Store.encode memory) ∧
          after.find (Store.draftPath settings.statePath scene.process) = .error .notFound ∧
          Store.Spares settings.statePath
            {settings.statePath, Store.draftPath settings.statePath scene.process}
            before after)) := by
  obtain ⟨reply, ⟨between, log⟩, judgement, attempt, ⟨⟨-, hsame⟩, hlog⟩, hjudgement, hattempt,
    hverdict, hsaved, hconcerned⟩ := hruns.concludes
  obtain rfl : between = before := hsame
  obtain rfl : log = [.read settings.statePath] := hlog
  constructor
  · intro hunusable
    rw [judge_of_not_isUsable hunusable] at hjudgement
    subst hjudgement
    obtain ⟨rfl, hfiles⟩ := hattempt
    obtain ⟨rfl, rfl⟩ := Prod.mk.inj hfiles
    refine ⟨rfl, rfl, hverdict, ?_, ?_, ?_⟩
    · rw [← Bool.not_eq_true, hsaved]
      simp
    · intro counter elapsed
      simp [hconcerned, Scene.IsConcerned]
    · intro reason
      simp [hconcerned, Scene.IsConcerned]
  · intro husable
    obtain ⟨next, hnext, hupdated⟩ := judge_next_of_isUsable husable settings.stallThreshold
      (Store.Loaded.ofOutcome (Store.ofContent settings.statePath reply)).memory
    rw [hjudgement, hnext] at hattempt
    obtain ⟨saved, rfl, hsave⟩ := hattempt
    rw [Option.some_inj] at hsaved
    refine ⟨next, saved, hupdated, hsave, hsaved, ?_, ?_⟩
    · rw [hsaved]
      cases saved <;> simp [hconcerned, Scene.IsConcerned]
    · rintro rfl
      have hpublished := Store.save_ends (Plan.ends_of_logged hsave)
      exact ⟨hpublished.read, hpublished.find_draft, hpublished.spares⟩

/-- A run on an empty disk, with the requests that it makes. -/
def firstRun : Outcome × Disk × List Disk.Action :=
  (sevenAt 100).perform (Plan.logging Disk.handle) besideIt (⟨[], []⟩, [])

/-- The first run leaves a memory of its time. -/
theorem firstRun_writes :
    (sevenAt 100).Runs besideIt (Plan.Logged MayFail) (⟨[], []⟩, []) firstRun.1 firstRun.2 ∧
      (sevenAt 100).IsUsable ∧ firstRun.1.isSaved = true ∧
      ∃ memory, memory.updated = some 100 ∧
        firstRun.2.1.read "state.json" = .ok (Store.encode memory) := by
  have hruns : (sevenAt 100).Runs besideIt (Plan.Logged MayFail) (⟨[], []⟩, []) firstRun.1
      firstRun.2 :=
    Scene.runs_perform (Plan.logged_logging fun files action =>
      Disk.Allows.mayFail (Disk.allows_perform files action)) _ _ _
  have hfull : (Scrape.ofText "finality_events_total 7\n").isEmpty = false := by decide +kernel
  have husable : (sevenAt 100).IsUsable := ⟨_, rfl, (Scrape.isEmpty_ofText_iff _).mp hfull⟩
  have hsaved : firstRun.1.isSaved = true := by decide +kernel
  -- the run need not be evaluated any further
  generalize firstRun = first at hruns hsaved ⊢
  obtain ⟨outcome, after, requests⟩ := first
  obtain ⟨-, hwrites⟩ := Scene.runs_write hruns
  obtain ⟨memory, saved, hupdated, -, houtcome, -, hdone⟩ := hwrites husable
  obtain ⟨hread, -⟩ := hdone (houtcome.mp hsaved)
  exact ⟨hruns, husable, hsaved, memory, hupdated, hread⟩

end ServiceWatch.Probe
