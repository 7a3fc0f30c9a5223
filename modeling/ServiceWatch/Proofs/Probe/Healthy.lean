import ServiceWatch.Proofs.Probe.Stuck
import ServiceWatch.Proofs.Probe.Write
import ServiceWatch.Proofs.Store.RoundTrip

/-!
# A healthy report is earned

A report without an entry is not one in which nothing was looked at.  When the exit code of a run is
zero, every check was made and passed, and the clock is armed for the next run: the counter was
judged and had not stood still for too long, the memory of this run was saved, and it is what will
be loaded (`Scene.runs_healthy`).

Nothing ties the exit code to the save directly.  Without an outage the metrics endpoint answered
with success, and without a concern every required series is in its answer, so the scrape is usable
and there was something to judge.  So there was an attempt to save, and a failure of that would be a
concern.
-/

namespace ServiceWatch

/-- An answer that does not fail has a body. -/
theorem Answer.exists_body_of_not_failsWith {answer : Answer}
    (hwell : ∀ failure, ¬ answer.FailsWith failure) : ∃ body, answer = .response 200 body := by
  rw [← failure?_eq_none_iff, Option.eq_none_iff_forall_ne_some]
  intro failure hfailure
  exact hwell failure (failure?_eq_some_iff.mp hfailure)

/-- Unless the counter is stalled, it has risen or the clock is within the threshold; either way no
more than the threshold has passed since the start. -/
theorem Stall.tick_of_not_stalled {threshold now : UInt64} {value : Binary64} {memory : Memory}
    (hwell : ∀ elapsed, (tick threshold value memory now).2 ≠ .stalled elapsed) :
    ((tick threshold value memory now).2 = .progressed ∨
        (tick threshold value memory now).2 =
          .idle (now - (tick threshold value memory now).1)) ∧
      ¬ threshold < now - (tick threshold value memory now).1 := by
  have hnow : ¬ threshold < now - now := by simp
  cases hbaseline : memory.last.finality with
  | none =>
      rw [tick_of_no_baseline hbaseline]
      exact ⟨Or.inr (by simp), hnow⟩
  | some baseline =>
      cases hrise : baseline.isLess value with
      | true =>
          rw [tick_of_rise hbaseline hrise]
          exact ⟨Or.inl rfl, hnow⟩
      | false =>
          rw [tick_of_no_rise hbaseline hrise] at hwell ⊢
          simp only [verdictSince] at hwell ⊢
          split
          next hlate =>
            rw [if_pos hlate] at hwell
            exact absurd rfl (hwell _)
          next hearly => exact ⟨Or.inr rfl, hearly⟩

namespace Probe

open Disk (Allows MayFail)

variable {settings : Settings} {before after : Disk} {scene : Scene} {outcome : Outcome}

/-! ### Scenes without outages and concerns -/

/-- Without an outage the service runs and both endpoints answered with success. -/
theorem Scene.all_up {service : String} (hup : ∀ outage, ¬ scene.IsDown service outage) :
    scene.state = .active ∧ (∃ body, scene.health = .response 200 body) ∧
      ∃ body, scene.metrics = .response 200 body := by
  refine ⟨?_, Answer.exists_body_of_not_failsWith fun failure => hup (.healthEndpoint failure),
    Answer.exists_body_of_not_failsWith fun failure => hup (.metricsEndpoint failure)⟩
  by_contra hstate
  exact hup (.serviceInactive service scene.state.word)
    (Scene.isDown_serviceInactive_iff.mpr ⟨hstate, rfl, rfl⟩)

/-- Without a concern about a series, each of those required is in the metrics answer. -/
theorem Scene.exists_entry {path body series : String}
    {reply : Except SystemError (List UInt8)} {verdict : Stall.Verdict}
    {attempt : Option (Except Store.Fault Unit)}
    (hnone : ¬ scene.IsConcerned path reply verdict attempt (.missingSeries series))
    (hmetrics : scene.metrics = .response 200 body) (hrequired : series ∈ requiredSeries) :
    ∃ line ∈ Text.lines body.toList, ∃ value, Metrics.ofLine? line = some (series, value) := by
  by_contra hmissing
  push Not at hmissing
  exact hnone ⟨hrequired, body, hmetrics, hmissing⟩

/-- A memory that can be read is one that is not there, or a document. -/
theorem read_of_not_isUnreadable {disk next : Disk} {path : String}
    {reply : Except SystemError (List UInt8)}
    (hreply : MayFail disk (.read path) reply next)
    (hreadable : ∀ reason, ¬ IsUnreadable path reply reason) :
    disk.read path = .error .notFound ∨
      ∃ content memory, disk.read path = .ok content ∧ Memory.ofDocument content = .ok memory := by
  obtain ⟨rfl | ⟨refusal, hrefusal, rfl⟩, -⟩ := hreply
  · cases hread : disk.read path with
    | error refusal =>
        rw [hread] at hreadable
        by_cases habsent : refusal = .notFound
        · exact Or.inl (by rw [habsent])
        · exact absurd (Or.inl ⟨refusal, rfl, habsent, rfl⟩) (hreadable _)
    | ok content =>
        rw [hread] at hreadable
        cases hdocument : Memory.ofDocument content with
        | ok memory => exact Or.inr ⟨content, memory, rfl, hdocument⟩
        | error failure =>
            exact absurd (Or.inr ⟨content, failure, rfl, hdocument, rfl⟩) (hreadable _)
  · exact absurd (Or.inl ⟨refusal, rfl, hrefusal, rfl⟩) (hreadable _)

/-! ### Healthy runs -/

/-- **There is no success by silence.**  A run with the exit code zero found the service running and
both endpoints up, saw every required series, judged the counter and did not find it stalled, could
read the memory if there was one, and saved the next one; and that is loaded without a concern, with
the time of the run and a clock that is within the threshold. -/
theorem Scene.runs_healthy (hruns : scene.Runs settings MayFail before outcome after)
    (hhealthy : outcome.report.exitCode = 0) :
    scene.state = .active ∧ (∃ body, scene.health = .response 200 body) ∧
      (∃ body, scene.metrics = .response 200 body ∧
        ∀ series ∈ requiredSeries, ∃ line ∈ Text.lines body.toList, ∃ value,
          Metrics.ofLine? line = some (series, value)) ∧
      (outcome.verdict = .progressed ∨ ∃ elapsed, outcome.verdict = .idle elapsed ∧
        elapsed.toNat ≤ 60 * settings.stallMinutes.toNat) ∧
      outcome.isSaved = true ∧
      (before.read settings.statePath = .error .notFound ∨
        ∃ content memory, before.read settings.statePath = .ok content ∧
          Memory.ofDocument content = .ok memory) ∧
      ∃ memory start,
        (∀ loaded last, (Store.load settings.statePath).Ends Allows after loaded last ↔
          loaded = ⟨memory, none⟩ ∧ last = after) ∧
        memory.updated = some scene.now ∧ memory.lastSeen = some start ∧ start ≤ scene.now ∧
        scene.now.toNat - start.toNat ≤ 60 * settings.stallMinutes.toNat := by
  obtain ⟨hup, hquiet⟩ := outcome.report.exitCode_eq_zero_iff.mp hhealthy
  obtain ⟨reply, between, judgement, attempt, hreply, hjudgement, hattempt, hverdict, hsaved,
    hconcerned⟩ := hruns.concludes
  have hdown : ∀ outage, ¬ scene.IsDown settings.service outage := fun outage houtage =>
    hup ⟨outage, (hruns.mem_outages_iff outage).mpr houtage⟩
  have hnone : ∀ concern,
      ¬ scene.IsConcerned settings.statePath reply judgement.verdict attempt concern :=
    fun concern hconcern => hquiet ⟨concern, (hconcerned concern).mpr hconcern⟩
  obtain ⟨hstate, hhealth, body, hmetrics⟩ := Scene.all_up hdown
  have hentries : ∀ series ∈ requiredSeries, ∃ line ∈ Text.lines body.toList, ∃ value,
      Metrics.ofLine? line = some (series, value) :=
    fun series => Scene.exists_entry (hnone (.missingSeries series)) hmetrics
  -- an entry for one of the series is enough for the scrape to be usable
  have husable : scene.IsUsable := by
    obtain ⟨line, hline, value, hentry⟩ := hentries finalitySeries (by simp [requiredSeries])
    exact ⟨body, hmetrics, line, hline, by rw [hentry]; rfl⟩
  obtain ⟨taken, htaken⟩ := exists_reading_iff.mpr husable
  rw [Stall.judge_of_reading_eq_some htaken] at hjudgement
  generalize (Store.Loaded.ofOutcome (Store.ofContent settings.statePath reply)).memory = found
    at hjudgement
  subst hjudgement
  -- there was something to remember, and the attempt to save it did not fail
  obtain ⟨saved, rfl, hsave⟩ := hattempt
  obtain rfl : saved = .ok () := by
    cases saved with
    | ok done => rfl
    | error fault => exact absurd ⟨fault, rfl, rfl⟩ (hnone (.memoryNotSaved _))
  have hrunning (elapsed : UInt64) :
      (Stall.tick settings.stallThreshold (Stall.watched taken) found scene.now).2 ≠
        .stalled elapsed :=
    fun hstalled => hnone (.stalled finalitySeries elapsed) ⟨rfl, hstalled⟩
  obtain ⟨hnotStalled, hearly⟩ := Stall.tick_of_not_stalled hrunning
  have hstart := Stall.tick_le settings.stallThreshold (Stall.watched taken) found scene.now
  generalize Stall.tick settings.stallThreshold (Stall.watched taken) found scene.now = clock
    at hverdict hsave hnotStalled hearly hstart
  have hwithin : (scene.now - clock.1).toNat ≤ 60 * settings.stallMinutes.toNat := by
    rw [Settings.stallThreshold, thresholdOfMinutes_lt_iff] at hearly
    exact Nat.le_of_not_lt hearly
  refine ⟨hstate, hhealth, ⟨body, hmetrics, hentries⟩, ?_, hsaved.mpr rfl,
    read_of_not_isUnreadable hreply fun reason => hnone (.memoryUnreadable reason), _, clock.1,
    (Store.loads_of_read (Store.save_ends hsave).read).2, rfl, rfl, hstart, ?_⟩
  · rw [hverdict]
    exact hnotStalled.imp_right fun hidle => ⟨_, hidle, hwithin⟩
  · rwa [UInt64.toNat_sub_of_le _ _ hstart] at hwithin

/-- All is well, and every required series has a value. -/
def allWell : Scene :=
  wellAt "anchors_received_total 3\nanchors_verified_total 2\nfinality_events_total 7\n" 100

/-- The first run of a probe on an empty disk. -/
def firstWell : Outcome × Disk := allWell.perform Disk.handle besideIt ⟨[], []⟩

/-- A first run may be healthy; what it saved is loaded. -/
theorem firstWell_loads :
    allWell.Runs besideIt MayFail ⟨[], []⟩ firstWell.1 firstWell.2 ∧
      firstWell.1.report.exitCode = 0 ∧ firstWell.1.isSaved = true ∧
      ∃ memory, memory.updated = some 100 ∧
        (Store.load besideIt.statePath).Ends Allows firstWell.2 ⟨memory, none⟩ firstWell.2 := by
  have hruns : allWell.Runs besideIt MayFail ⟨[], []⟩ firstWell.1 firstWell.2 :=
    Scene.runs_perform (fun files action => Disk.Allows.mayFail (Disk.allows_perform files action))
      _ _ _
  have hhealthy : firstWell.1.report.exitCode = 0 := by decide +kernel
  obtain ⟨-, -, -, -, hsaved, -, memory, start, hload, hupdated, -⟩ :=
    Scene.runs_healthy hruns hhealthy
  exact ⟨hruns, hhealthy, hsaved, memory, hupdated, (hload _ _).mpr ⟨rfl, rfl⟩⟩

end Probe

end ServiceWatch
