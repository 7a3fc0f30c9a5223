import ServiceWatch.Proofs.Probe.Stuck
import ServiceWatch.Proofs.Probe.Write

/-!
# A stall is reported on evidence

A run finds the counter stalled exactly when there is evidence of it (`Scene.HasEvidence`): a usable
metrics answer, a file whose memory has a baseline and a time of the last progress, no rise above
that baseline, and more than the minutes of the settings between that time and now.  The evidence is
spelled in natural numbers, which have no greatest one (`Scene.runs_stalled_iff`).

## Strategy

The judgement is made in words of 64 bits.  None of its operations wraps: the threshold is cut off
at the greatest word (`toNat_thresholdOfMinutes`), and the start of the clock never lies behind the
present time, so the difference of the two is exact (`elapsed_add_start`).
-/

namespace ServiceWatch

/-! ### Words as numbers -/

namespace Stall

variable {minutes start now elapsed : UInt64} {value : Binary64} {memory : Memory}

/-- The threshold is the number of seconds, or the greatest time when that does not fit. -/
theorem toNat_thresholdOfMinutes (minutes : UInt64) :
    (thresholdOfMinutes minutes).toNat = min (60 * minutes.toNat) (UInt64.size - 1) := by
  unfold thresholdOfMinutes
  split
  next hfits =>
    have hproduct : (minutes * 60).toNat = minutes.toNat * 60 := Nat.mod_eq_of_lt hfits
    omega
  next hgreat =>
    have hgreatest : (0xFFFFFFFFFFFFFFFF : UInt64).toNat = UInt64.size - 1 := rfl
    omega

/-- A clock that started by now is late by the exact number of seconds. -/
theorem verdictSince_eq_stalled_iff (hstart : start ≤ now) :
    verdictSince (thresholdOfMinutes minutes) start now = .stalled elapsed ↔
      start.toNat + 60 * minutes.toNat < now.toNat ∧
        elapsed.toNat + start.toNat = now.toNat := by
  have hexact : (now - start).toNat = now.toNat - start.toNat := UInt64.toNat_sub_of_le _ _ hstart
  have hle : start.toNat ≤ now.toNat := UInt64.le_iff_toNat_le.mp hstart
  have hlate : thresholdOfMinutes minutes < now - start ↔
      start.toNat + 60 * minutes.toNat < now.toNat := by
    rw [Probe.thresholdOfMinutes_lt_iff, hexact]
    omega
  have hsame : now - start = elapsed ↔ elapsed.toNat + start.toNat = now.toNat := by
    rw [← UInt64.toNat_inj, hexact]
    omega
  unfold verdictSince
  by_cases hafter : thresholdOfMinutes minutes < now - start
  · simp [hafter, hlate.mp hafter, hsame]
  · simp [hafter, mt hlate.mpr hafter]

/-- A value is found stalled exactly when it does not rise above a baseline and the minutes have
passed since a remembered time. -/
theorem tick_eq_stalled_iff :
    (tick (thresholdOfMinutes minutes) value memory now).2 = .stalled elapsed ↔
      ∃ baseline start, memory.last.finality = some baseline ∧ memory.lastSeen = some start ∧
        baseline.isLess value = false ∧ start.toNat + 60 * minutes.toNat < now.toNat ∧
        elapsed.toNat + start.toNat = now.toNat := by
  cases hbaseline : memory.last.finality with
  | none => simp [tick_of_no_baseline hbaseline]
  | some baseline =>
      cases hrise : baseline.isLess value with
      | true => simp [tick_of_rise hbaseline hrise, hrise]
      | false =>
          rw [tick_of_no_rise hbaseline hrise]
          cases hlast : memory.lastSeen with
          | none => simp [Std.min_self, verdictSince_self]
          | some start =>
              simp only [Option.getD_some, Option.some_inj, exists_and_left, exists_eq_left',
                hrise, true_and]
              by_cases hstart : start ≤ now
              · rw [Std.min_eq_if, if_pos hstart, verdictSince_eq_stalled_iff hstart]
              · -- a time that is still to come counts as now
                have hnow : now ≤ start := Std.le_of_not_ge hstart
                have hle : now.toNat ≤ start.toNat := UInt64.le_iff_toNat_le.mp hnow
                rw [Std.min_eq_if, if_neg hstart, verdictSince_self]
                constructor
                · exact fun h => absurd h (by simp)
                · intro h
                  omega

/-- The time that is reported and the start of the clock make up the present time. -/
theorem elapsed_add_start {threshold : UInt64}
    (helapsed : (tick threshold value memory now).2.elapsed? = some elapsed) :
    elapsed.toNat + (tick threshold value memory now).1.toNat = now.toNat := by
  cases hbaseline : memory.last.finality with
  | none =>
      rw [tick_of_no_baseline hbaseline] at helapsed ⊢
      obtain rfl := Option.some.inj helapsed
      simp
  | some baseline =>
      cases hrise : baseline.isLess value with
      | true =>
          rw [tick_of_rise hbaseline hrise] at helapsed ⊢
          obtain rfl := Option.some.inj helapsed
          simp
      | false =>
          rw [tick_of_no_rise hbaseline hrise] at helapsed ⊢
          have hstart : min (memory.lastSeen.getD now) now ≤ now := Std.min_le_right
          have hverdict : now - min (memory.lastSeen.getD now) now = elapsed := by
            simp only [verdictSince] at helapsed
            split at helapsed <;> exact Option.some.inj helapsed
          have hle := UInt64.le_iff_toNat_le.mp hstart
          rw [← hverdict, UInt64.toNat_sub_of_le _ _ hstart]
          exact Nat.sub_add_cancel hle

end Stall

/-! ### Files without a baseline -/

namespace Store

variable {disk : Disk} {path : String}

/-- Only a file that can be decoded holds a baseline. -/
theorem exists_document_of_baseline {baseline : Binary64}
    (hbaseline : (held disk path).last.finality = some baseline) :
    ∃ content, disk.read path = .ok content ∧ Memory.ofDocument content = .ok (held disk path) := by
  have hnotBlank : held disk path ≠ .blank := by
    intro hblank
    rw [hblank] at hbaseline
    exact absurd hbaseline (by simp [Memory.blank])
  cases hread : disk.read path with
  | error refusal =>
      refine absurd (held_eq_blank ?_) hnotBlank
      simp [hread]
  | ok content =>
      refine ⟨content, rfl, ?_⟩
      unfold held at hnotBlank ⊢
      simp only [hread, decode] at hnotBlank ⊢
      cases hdocument : Memory.ofDocument content with
      | ok memory => rfl
      | error failure => simp [hdocument] at hnotBlank

theorem held_of_document {content : List UInt8} {memory : Memory}
    (hread : disk.read path = .ok content) (hdocument : Memory.ofDocument content = .ok memory) :
    held disk path = memory :=
  held_of_read hread (by rw [decode, hdocument])

end Store

/-! ### The whole run -/

namespace Probe

open Disk (Allows)

variable {settings : Settings} {before after : Disk} {scene : Scene} {outcome : Outcome}
  {minutes elapsed : UInt64} {memory : Memory}

/-- What a scene has to say for a stall, to a run that remembers `memory`: no rise, and the minutes
have passed since `start`. -/
structure Scene.HasEvidence (scene : Scene) (minutes : UInt64) (memory : Memory)
    (start : UInt64) : Prop where
  noRise : ∃ body baseline, scene.metrics = .response 200 body ∧
    (∃ line ∈ Text.lines body.toList, (Metrics.ofLine? line).isSome = true) ∧
    memory.last.finality = some baseline ∧
    baseline.isLess (((Scrape.ofText body).value? finalitySeries).getD .zero) = false
  lastSeen : memory.lastSeen = some start
  late : start.toNat + 60 * minutes.toNat < scene.now.toNat

section HasEvidence

variable {start : UInt64}

/-- Evidence that is remembered comes from a file that can be decoded. -/
theorem Scene.HasEvidence.exists_document {disk : Disk} {path : String}
    (hevidence : scene.HasEvidence minutes (Store.held disk path) start) :
    ∃ content, disk.read path = .ok content ∧
      Memory.ofDocument content = .ok (Store.held disk path) := by
  obtain ⟨body, baseline, -, -, hbaseline, -⟩ := hevidence.noRise
  exact Store.exists_document_of_baseline hbaseline

/-- The minutes that a concern tells are no less than those of the settings. -/
theorem Scene.HasEvidence.minutes_le (hevidence : scene.HasEvidence minutes memory start)
    (hexact : elapsed.toNat + start.toNat = scene.now.toNat) :
    minutes.toNat ≤ elapsed.toNat / 60 := by
  have hlate := hevidence.late
  rw [Nat.le_div_iff_mul_le (by decide)]
  omega

/-- There is no evidence without a baseline, without a last progress, or with one that is still to
come. -/
theorem Scene.HasEvidence.complete (hevidence : scene.HasEvidence minutes memory start) :
    ¬ (memory.last.finality = none ∨ memory.lastSeen = none ∨
      ∃ start, memory.lastSeen = some start ∧ scene.now < start) := by
  rintro (hmissing | hmissing | ⟨later, hlater, hcoming⟩)
  · obtain ⟨body, baseline, -, -, hbaseline, -⟩ := hevidence.noRise
    rw [hmissing] at hbaseline
    exact absurd hbaseline (by simp)
  · rw [hevidence.lastSeen] at hmissing
    exact absurd hmissing (by simp)
  · obtain rfl := Option.some.inj (hevidence.lastSeen.symm.trans hlater)
    have hlate := hevidence.late
    have hbefore := UInt64.lt_iff_toNat_lt.mp hcoming
    omega

end HasEvidence

theorem judge_verdict_eq_stalled_iff :
    (Stall.judge (Stall.thresholdOfMinutes minutes) scene.scrape memory scene.now).verdict =
        .stalled elapsed ↔
      ∃ start, scene.HasEvidence minutes memory start ∧
        elapsed.toNat + start.toNat = scene.now.toNat := by
  cases htaken : Stall.reading? (scene.scrape, scene.now) with
  | none =>
      rw [Stall.judge_of_reading_eq_none htaken]
      refine iff_of_false (by simp) ?_
      rintro ⟨start, ⟨⟨body, baseline, hmetrics, hline, -⟩, -, -⟩, -⟩
      rw [reading?_eq_some_iff.mpr ⟨body, hmetrics, hline, rfl⟩] at htaken
      exact absurd htaken (by simp)
  | some taken =>
      obtain ⟨body, hmetrics, hline, rfl⟩ := reading?_eq_some_iff.mp htaken
      rw [Stall.judge_of_reading_eq_some htaken, Stall.tick_eq_stalled_iff]
      constructor
      · rintro ⟨baseline, start, hbaseline, hseen, hrise, hlate, hexact⟩
        exact ⟨start, ⟨⟨body, baseline, hmetrics, hline, hbaseline, hrise⟩, hseen, hlate⟩, hexact⟩
      · rintro ⟨start, ⟨⟨other, baseline, hother, -, hbaseline, hrise⟩, hseen, hlate⟩, hexact⟩
        rw [hmetrics] at hother
        obtain ⟨-, rfl⟩ := Answer.response.inj hother
        exact ⟨baseline, start, hbaseline, hseen, hrise, hlate, hexact⟩

/-- The time that a judgement reports is the one since the start of the clock that it leaves. -/
theorem elapsed_add_lastSeen {threshold : UInt64}
    (helapsed : (Stall.judge threshold scene.scrape memory scene.now).verdict.elapsed? =
      some elapsed) :
    ∃ next start, (Stall.judge threshold scene.scrape memory scene.now).next = some next ∧
      next.lastSeen = some start ∧ elapsed.toNat + start.toNat = scene.now.toNat := by
  cases htaken : Stall.reading? (scene.scrape, scene.now) with
  | none =>
      rw [Stall.judge_of_reading_eq_none htaken] at helapsed
      exact absurd helapsed (by simp [Stall.Verdict.elapsed?])
  | some taken =>
      rw [Stall.judge_of_reading_eq_some htaken] at helapsed ⊢
      exact ⟨_, _, rfl, rfl, Stall.elapsed_add_start helapsed⟩

/-- **A run reports a stall exactly on evidence, and its arithmetic is exact.**  The evidence is
that of the scene together with a file that can be decoded.  The time that any verdict tells and the
start of the clock add up to now, the threshold is the number of seconds unless that is no word, and
the minutes in the line of the concern are no less than those of the settings.  So there is no stall
without a baseline, without a last progress, or with one that is still to come. -/
theorem Scene.runs_stalled_iff (hruns : scene.Runs settings Allows before outcome after) :
    (∀ elapsed, outcome.verdict = .stalled elapsed ↔
      ∃ content memory start, before.read settings.statePath = .ok content ∧
        Memory.ofDocument content = .ok memory ∧
        scene.HasEvidence settings.stallMinutes memory start ∧
        elapsed.toNat + start.toNat = scene.now.toNat) ∧
      settings.stallThreshold.toNat =
        min (60 * settings.stallMinutes.toNat) (UInt64.size - 1) ∧
      (∀ elapsed, outcome.verdict.elapsed? = some elapsed →
        ∃ next start,
          (Stall.judge settings.stallThreshold scene.scrape
            (Store.held before settings.statePath) scene.now).next = some next ∧
          next.lastSeen = some start ∧ elapsed.toNat + start.toNat = scene.now.toNat) ∧
      (∀ counter elapsed, .stalled counter elapsed ∈ outcome.report.concerns ↔
        counter = finalitySeries ∧ outcome.verdict = .stalled elapsed) ∧
      (∀ counter elapsed, .stalled counter elapsed ∈ outcome.report.concerns →
        ∃ minutes, settings.stallMinutes.toNat ≤ minutes ∧
          (Concern.stalled counter elapsed).line =
            finalitySeries ++ " stalled (" ++ toString minutes ++ "m without increment)") ∧
      ((∀ content memory, before.read settings.statePath = .ok content →
          Memory.ofDocument content = .ok memory →
          memory.last.finality = none ∨ memory.lastSeen = none ∨
            ∃ start, memory.lastSeen = some start ∧ scene.now < start) →
        ∀ elapsed, outcome.verdict ≠ .stalled elapsed) := by
  obtain ⟨reply, between, judgement, attempt, ⟨rfl, -⟩, hjudgement, -, hverdict, -, hconcerned⟩ :=
    hruns.concludes
  rw [Store.memory_ofContent_read] at hjudgement
  subst hjudgement
  have hstalled (elapsed : UInt64) : outcome.verdict = .stalled elapsed ↔
      ∃ start, scene.HasEvidence settings.stallMinutes (Store.held before settings.statePath)
        start ∧ elapsed.toNat + start.toNat = scene.now.toNat := by
    rw [hverdict]
    exact judge_verdict_eq_stalled_iff
  have hconcern (counter : String) (elapsed : UInt64) :
      .stalled counter elapsed ∈ outcome.report.concerns ↔
        counter = finalitySeries ∧ outcome.verdict = .stalled elapsed := by
    rw [hconcerned, hverdict]
    rfl
  refine ⟨?_, Stall.toNat_thresholdOfMinutes _, ?_, hconcern, ?_, ?_⟩
  · intro elapsed
    rw [hstalled]
    constructor
    · rintro ⟨start, hevidence, hexact⟩
      obtain ⟨content, hread, hdocument⟩ := hevidence.exists_document
      exact ⟨content, _, start, hread, hdocument, hevidence, hexact⟩
    · rintro ⟨content, memory, start, hread, hdocument, hevidence, hexact⟩
      rw [Store.held_of_document hread hdocument]
      exact ⟨start, hevidence, hexact⟩
  · intro elapsed helapsed
    rw [hverdict] at helapsed
    exact elapsed_add_lastSeen helapsed
  · intro counter elapsed hmem
    obtain ⟨rfl, hverdict⟩ := (hconcern _ _).mp hmem
    obtain ⟨start, hevidence, hexact⟩ := (hstalled elapsed).mp hverdict
    exact ⟨elapsed.toNat / 60, hevidence.minutes_le hexact, rfl⟩
  · intro hnone elapsed hverdict
    obtain ⟨start, hevidence, -⟩ := (hstalled elapsed).mp hverdict
    obtain ⟨content, hread, hdocument⟩ := hevidence.exists_document
    exact hevidence.complete (hnone content _ hread hdocument)

/-- A disk on which the last run remembered the value seven, seen for the first time at 100. -/
def sinceHundred : Disk where
  nodes := [(["state.json"],
    .file (Text.Utf8.encode
      "\x7b\"last\":\x7b\"finality_events_total\":7.0\x7d,\"last_seen\":100\x7d".toList) false)]
  workingDirectory := []

/-- The run at 2000, which sees seven again. -/
def lateRun : Outcome × Disk := (sevenAt 2000).perform Disk.handle besideIt sinceHundred

/-- It reports 1900 seconds, which is more than the twenty minutes of the settings. -/
theorem lateRun_stalled :
    (sevenAt 2000).Runs besideIt Allows sinceHundred lateRun.1 lateRun.2 ∧
      lateRun.1.verdict = .stalled 1900 ∧
      .stalled finalitySeries 1900 ∈ lateRun.1.report.concerns ∧
      ∃ content memory start, sinceHundred.read besideIt.statePath = .ok content ∧
        Memory.ofDocument content = .ok memory ∧
        (sevenAt 2000).HasEvidence besideIt.stallMinutes memory start ∧
        (1900 : UInt64).toNat + start.toNat = (2000 : UInt64).toNat := by
  have hruns : (sevenAt 2000).Runs besideIt Allows sinceHundred lateRun.1 lateRun.2 :=
    Scene.runs_perform Disk.allows_perform _ _ _
  have hverdict : lateRun.1.verdict = .stalled 1900 := by decide +kernel
  obtain ⟨hstalled, -, -, hconcern, -⟩ := Scene.runs_stalled_iff hruns
  exact ⟨hruns, hverdict, (hconcern _ _).mpr ⟨rfl, hverdict⟩, (hstalled 1900).mp hverdict⟩

end Probe

end ServiceWatch
