import Mathlib.Data.List.Chain
import Mathlib.Data.List.Induction
import ServiceWatch.Proofs.Stall.History

/-!
# Scrapes without the watched series

A scrape that holds other series, but not the watched one, is judged as if the watched counter stood
at zero, and that zero is what the next scrape is compared with.  So a counter that never rises, as
far as its values were scraped, can seem to rise over such a gap: from the zero of the gap to a
value above it, or from a value below zero to the zero of the gap (`RisesOverGap`).

Gaps are the only cause: where the scraped values never rise, a step is judged progressed exactly if
it rises over a gap, and the clock is set again at these steps alone (`judgeAll_of_neverRises`).

## Strategy

The memory that is carried into a step remembers the watched value of the last reading before it
(`finality_memoryAfter`).  If both readings hold the series, their values are neighbours among the
scraped ones, and then there is no rise.
-/

namespace ServiceWatch.Stall

/-- The last scrape of the steps that holds a series. -/
def lastReading? (steps : List Step) : Option Scrape :=
  (steps.filterMap reading?).getLast?

/-- The values of the watched series, from the scrapes that hold it. -/
def scrapedValues (steps : List Step) : List Binary64 :=
  (steps.filterMap reading?).filterMap fun scrape => scrape.value? finalitySeries

/-- No value is greater than the one before it. -/
def NeverRises (values : List Binary64) : Prop :=
  values.IsChain fun value next => value.isLess next = false

instance (values : List Binary64) : Decidable (NeverRises values) :=
  inferInstanceAs (Decidable (values.IsChain fun value next => value.isLess next = false))

/-- One of two scrapes lacks the watched series, and as zero it makes the second the greater. -/
def RisesOverGap (previous scrape : Scrape) : Prop :=
  (previous.value? finalitySeries = none ∧
    ∃ value, scrape.value? finalitySeries = some value ∧ Binary64.zero.isLess value = true) ∨
  scrape.value? finalitySeries = none ∧
    ∃ value, previous.value? finalitySeries = some value ∧ value.isLess .zero = true

/-- The scrape of step `i` rises over a gap from the last one before it. -/
def RisesOverGapAt (steps : List Step) (i : ℕ) : Prop :=
  ∃ step scrape previous, steps[i]? = some step ∧ reading? step = some scrape ∧
    lastReading? (steps.take i) = some previous ∧ RisesOverGap previous scrape

/-- The start of the clock that is remembered after step `i`, if nothing was remembered at first. -/
def clockAfter (threshold : UInt64) (steps : List Step) (i : ℕ) : Option UInt64 :=
  (memoryAfter threshold .blank (steps.take (i + 1))).lastSeen

variable {threshold now : UInt64} {steps : List Step} {step : Step} {i j : ℕ}
  {memory : Memory} {value : Binary64} {scrape previous : Scrape}

/-! ### What is compared -/

theorem tick_eq_progressed_iff :
    (tick threshold value memory now).2 = .progressed ↔
      ∃ baseline, memory.last.finality = some baseline ∧ baseline.isLess value = true := by
  cases hbaseline : memory.last.finality with
  | none => simp [tick_of_no_baseline hbaseline]
  | some baseline =>
      cases hrise : baseline.isLess value with
      | true => simp [tick_of_rise hbaseline hrise, hrise]
      | false => simp [tick_of_no_rise hbaseline hrise, hrise, verdictSince_ne_progressed]

theorem tick_of_ne_progressed {baseline : Binary64}
    (hbaseline : memory.last.finality = some baseline)
    (hverdict : (tick threshold value memory now).2 ≠ .progressed) :
    (tick threshold value memory now).1 = min (memory.lastSeen.getD now) now := by
  cases hrise : baseline.isLess value with
  | true => exact absurd (tick_eq_progressed_iff.mpr ⟨baseline, hbaseline, hrise⟩) hverdict
  | false => rw [tick_of_no_rise hbaseline hrise]

theorem take_succ_of_getElem? (hstep : steps[i]? = some step) :
    steps.take (i + 1) = steps.take i ++ [step] := by
  rw [List.take_add_one, hstep, Option.toList_some]

theorem memoryAfter_append (threshold : UInt64) (memory : Memory) (steps : List Step)
    (step : Step) :
    memoryAfter threshold memory (steps ++ [step]) =
      (judge threshold step.1 (memoryAfter threshold memory steps) step.2).carried
        (memoryAfter threshold memory steps) := by
  simp [memoryAfter]

theorem lastReading?_append_of_none (hread : reading? step = none) :
    lastReading? (steps ++ [step]) = lastReading? steps := by
  simp [lastReading?, hread]

theorem lastReading?_append_of_some (hread : reading? step = some scrape) :
    lastReading? (steps ++ [step]) = some scrape := by
  simp [lastReading?, hread]

/-- What is remembered of the counter is what the last reading gave. -/
theorem finality_memoryAfter (threshold : UInt64) (steps : List Step) :
    (memoryAfter threshold .blank steps).last.finality = (lastReading? steps).map watched := by
  induction steps using List.reverseRecOn with
  | nil => rfl
  | append_singleton steps step ih =>
      rw [memoryAfter_append]
      cases hread : reading? step with
      | none =>
          rw [judge_of_reading_eq_none hread, lastReading?_append_of_none hread]
          exact ih
      | some scrape =>
          rw [judge_of_reading_eq_some hread, lastReading?_append_of_some hread]
          rfl

/-- The clock is started by the first reading. -/
theorem isSome_lastSeen_memoryAfter (threshold : UInt64) (steps : List Step) :
    (memoryAfter threshold .blank steps).lastSeen.isSome = (lastReading? steps).isSome := by
  induction steps using List.reverseRecOn with
  | nil => rfl
  | append_singleton steps step ih =>
      rw [memoryAfter_append]
      cases hread : reading? step with
      | none =>
          rw [judge_of_reading_eq_none hread, lastReading?_append_of_none hread]
          exact ih
      | some scrape =>
          rw [judge_of_reading_eq_some hread, lastReading?_append_of_some hread]
          rfl

/-- Of two scrapes next to each other whose values do not rise, the second is watched to rise
exactly if it does so over a gap. -/
theorem watched_isLess_iff
    (hfalls : ∀ value next, previous.value? finalitySeries = some value →
      scrape.value? finalitySeries = some next → value.isLess next = false) :
    (watched previous).isLess (watched scrape) = true ↔ RisesOverGap previous scrape := by
  unfold watched RisesOverGap
  cases hprevious : previous.value? finalitySeries with
  | none =>
      cases hscrape : scrape.value? finalitySeries with
      | none => simp [Binary64.zero, Binary64.signedZero, Binary64.isLess]
      | some value => simp
  | some value =>
      cases hscrape : scrape.value? finalitySeries with
      | none => simp
      | some next => simp [hfalls value next hprevious hscrape]

theorem NeverRises.take (hnever : NeverRises (scrapedValues steps)) (i : ℕ) :
    NeverRises (scrapedValues (steps.take i)) := by
  rw [← List.take_append_drop i steps, scrapedValues, List.filterMap_append,
    List.filterMap_append] at hnever
  exact hnever.left_of_append

/-- The values of the last two scrapes are neighbours among the scraped ones. -/
theorem isLess_of_neverRises (hnever : NeverRises (scrapedValues steps))
    (hstep : steps[i]? = some step) (hread : reading? step = some scrape)
    (hlast : lastReading? (steps.take i) = some previous) {next : Binary64}
    (hvalue : previous.value? finalitySeries = some value)
    (hnext : scrape.value? finalitySeries = some next) : value.isLess next = false := by
  obtain ⟨front, hfront⟩ := List.getLast?_eq_some_iff.mp hlast
  have hvalues : scrapedValues (steps.take (i + 1)) =
      (front.filterMap fun scrape => scrape.value? finalitySeries) ++ [value, next] := by
    simp [scrapedValues, take_succ_of_getElem? hstep, List.filterMap_append, hfront, hread, hvalue,
      hnext]
  have hchain := hnever.take (i + 1)
  rw [hvalues] at hchain
  have hpair : NeverRises [value, next] := List.IsChain.right_of_append hchain
  -- stated first, since the goal alone is taken for a chain of equations
  have hrise := List.isChain_pair.mp hpair
  exact hrise

/-! ### When a step is progressed -/

theorem risesOverGapAt_iff (hstep : steps[i]? = some step) (hread : reading? step = some scrape) :
    RisesOverGapAt steps i ↔
      ∃ previous, lastReading? (steps.take i) = some previous ∧ RisesOverGap previous scrape := by
  simp [RisesOverGapAt, hstep, hread]

/-- A reading rises above what is remembered exactly if it does so over a gap. -/
theorem tick_eq_progressed_iff_gap (hnever : NeverRises (scrapedValues steps))
    (hstep : steps[i]? = some step) (hread : reading? step = some scrape) :
    (tick threshold (watched scrape) (memoryAfter threshold .blank (steps.take i))
        step.2).2 = .progressed ↔ RisesOverGapAt steps i := by
  rw [tick_eq_progressed_iff, finality_memoryAfter, risesOverGapAt_iff hstep hread]
  constructor
  · rintro ⟨baseline, hbaseline, hrise⟩
    obtain ⟨previous, hlast, rfl⟩ := Option.map_eq_some_iff.mp hbaseline
    exact ⟨previous, hlast, (watched_isLess_iff fun value next =>
      isLess_of_neverRises hnever hstep hread hlast).mp hrise⟩
  · rintro ⟨previous, hlast, hgap⟩
    refine ⟨watched previous, by rw [hlast]; rfl, ?_⟩
    exact (watched_isLess_iff fun value next =>
      isLess_of_neverRises hnever hstep hread hlast).mpr hgap

theorem progressed_iff (hnever : NeverRises (scrapedValues steps)) {judgement : Judgement}
    (hjudged : (judgeAll threshold .blank steps)[i]? = some judgement) :
    judgement.verdict = .progressed ↔ RisesOverGapAt steps i := by
  rw [getElem?_judgeAll] at hjudged
  obtain ⟨step, hstep, rfl⟩ := Option.map_eq_some_iff.mp hjudged
  cases hread : reading? step with
  | none =>
      rw [judge_of_reading_eq_none hread]
      simp [RisesOverGapAt, hstep, hread]
  | some scrape =>
      rw [judge_of_reading_eq_some hread]
      exact tick_eq_progressed_iff_gap hnever hstep hread

/-! ### When the clock is set -/

theorem clockAfter_of_no_reading (hstep : steps[i]? = some step) (hread : reading? step = none) :
    clockAfter threshold steps i = (memoryAfter threshold .blank (steps.take i)).lastSeen := by
  rw [clockAfter, memoryAfter_take_succ hstep, judge_of_reading_eq_none hread]
  rfl

theorem clockAfter_of_reading (hstep : steps[i]? = some step)
    (hread : reading? step = some scrape) :
    clockAfter threshold steps i =
      some (tick threshold (watched scrape) (memoryAfter threshold .blank (steps.take i))
        step.2).1 := by
  rw [clockAfter, memoryAfter_take_succ hstep, judge_of_reading_eq_some hread]
  rfl

/-- The times of the steps never go back. -/
def TimesNeverFall (steps : List Step) : Prop := (steps.map Prod.snd).Pairwise (· ≤ ·)

instance (steps : List Step) : Decidable (TimesNeverFall steps) :=
  inferInstanceAs (Decidable ((steps.map Prod.snd).Pairwise (· ≤ ·)))

theorem TimesNeverFall.le {other : Step} (htimes : TimesNeverFall steps) (hlt : i < j)
    (hstep : steps[i]? = some step) (hother : steps[j]? = some other) : step.2 ≤ other.2 := by
  obtain ⟨hi, rfl⟩ := List.getElem?_eq_some_iff.mp hstep
  obtain ⟨hj, rfl⟩ := List.getElem?_eq_some_iff.mp hother
  have hpair := List.pairwise_iff_getElem.mp htimes i j (by simpa using hi) (by simpa using hj) hlt
  simpa using hpair

/-- The clock was started by the time of the step. -/
theorem start_le_of_clockAfter (htimes : TimesNeverFall steps) (hstep : steps[i]? = some step)
    {start : UInt64} (hclock : clockAfter threshold steps i = some start) : start ≤ step.2 := by
  induction i generalizing step with
  | zero =>
      cases hread : reading? step with
      | none =>
          rw [clockAfter_of_no_reading hstep hread] at hclock
          exact absurd hclock (by simp [memoryAfter, Memory.blank])
      | some scrape =>
          rw [clockAfter_of_reading hstep hread, Option.some_inj] at hclock
          rw [← hclock]
          exact tick_le threshold _ _ step.2
  | succ i ih =>
      cases hread : reading? step with
      | none =>
          have hlt : i < steps.length :=
            Nat.lt_of_succ_lt (List.getElem?_eq_some_iff.mp hstep).1
          have hbefore : steps[i]? = some steps[i] := List.getElem?_eq_getElem hlt
          rw [clockAfter_of_no_reading hstep hread] at hclock
          exact UInt64.le_trans (ih hbefore hclock) (htimes.le i.lt_succ_self hbefore hstep)
      | some scrape =>
          rw [clockAfter_of_reading hstep hread, Option.some_inj] at hclock
          rw [← hclock]
          exact tick_le threshold _ _ step.2

/-- Once the clock was started, a step that rises over no gap leaves it. -/
theorem clockAfter_succ (hnever : NeverRises (scrapedValues steps)) (htimes : TimesNeverFall steps)
    (hi : i + 1 < steps.length) (hgap : ¬ RisesOverGapAt steps (i + 1)) {start : UInt64}
    (hclock : clockAfter threshold steps i = some start) :
    clockAfter threshold steps (i + 1) = some start := by
  have hstep : steps[i + 1]? = some steps[i + 1] := List.getElem?_eq_getElem hi
  have hbefore : steps[i]? = some steps[i] := List.getElem?_eq_getElem (Nat.lt_of_succ_lt hi)
  have hle : start ≤ steps[i + 1].2 :=
    UInt64.le_trans (start_le_of_clockAfter htimes hbefore hclock)
      (htimes.le i.lt_succ_self hbefore hstep)
  cases hread : reading? steps[i + 1] with
  | none => exact (clockAfter_of_no_reading hstep hread).trans hclock
  | some scrape =>
      -- the clock was started by a reading, which left something to compare with
      have hlast : (lastReading? (steps.take (i + 1))).isSome = true := by
        rw [← isSome_lastSeen_memoryAfter threshold, ← clockAfter, hclock, Option.isSome_some]
      obtain ⟨previous, hprevious⟩ := Option.isSome_iff_exists.mp hlast
      have hbaseline : (memoryAfter threshold .blank (steps.take (i + 1))).last.finality =
          some (watched previous) := by
        rw [finality_memoryAfter, hprevious, Option.map_some]
      have hverdict : (tick threshold (watched scrape)
          (memoryAfter threshold .blank (steps.take (i + 1))) steps[i + 1].2).2 ≠ .progressed :=
        mt (tick_eq_progressed_iff_gap hnever hstep hread).mp hgap
      rw [clockAfter_of_reading hstep hread, tick_of_ne_progressed hbaseline hverdict, ← clockAfter,
        hclock, Option.getD_some, Std.LawfulOrderLeftLeaningMin.min_eq_left _ _ hle]

/-- **A counter that never rises is reported as progress only over a gap.**  Where the values that
were scraped never rise, a step is judged progressed exactly if it rises over a gap: its scrape or
the last one before it lacks the watched series, and as zero that makes a rise.  Where the times
never fall either, the clock that a reading has started is left alone by all steps but these. -/
theorem judgeAll_of_neverRises (threshold : UInt64) (steps : List Step)
    (hnever : NeverRises (scrapedValues steps)) :
    (∀ i judgement, (judgeAll threshold .blank steps)[i]? = some judgement →
      (judgement.verdict = .progressed ↔ RisesOverGapAt steps i)) ∧
    (TimesNeverFall steps → ∀ j i, j ≤ i → i < steps.length →
      (lastReading? (steps.take (j + 1))).isSome = true →
      (∀ k, j < k → k ≤ i → ¬ RisesOverGapAt steps k) →
        clockAfter threshold steps i = clockAfter threshold steps j) := by
  refine ⟨fun i judgement hjudged => progressed_iff hnever hjudged, ?_⟩
  intro htimes j i hle hi hread hgaps
  rw [← isSome_lastSeen_memoryAfter threshold] at hread
  obtain ⟨start, hstart⟩ := Option.isSome_iff_exists.mp hread
  rw [← clockAfter] at hstart
  -- by induction on the steps since step `j`
  induction i, hle using Nat.le_induction with
  | base => rfl
  | succ i hle ih =>
      have hbefore := ih (Nat.lt_of_succ_lt hi) fun k hlt hk => hgaps k hlt (hk.trans i.le_succ)
      rw [hstart] at hbefore ⊢
      exact clockAfter_succ hnever htimes hi (hgaps (i + 1) (Nat.lt_succ_of_le hle) le_rfl) hbefore

/-- A scrape of the watched counter alone, at this value. -/
def counterAt (n : ℕ) : Option Scrape := some ⟨[(finalitySeries, .ofNat false n)]⟩

/-- A scrape of another series. -/
def otherSeries : Option Scrape := some ⟨[(receivedSeries, .ofNat false 3)]⟩

/-- A counter at five, in a scrape and again after more than half an hour, and between them a scrape
without it. -/
def stuckSteps : List Step := [(counterAt 5, 100), (otherSeries, 1200), (counterAt 5, 2300)]

/-- The counter is reported as progress, and so its stall is hidden: twenty minutes are over, and
the clock starts again. -/
theorem progressed_stuckSteps :
    NeverRises (scrapedValues stuckSteps) ∧ TimesNeverFall stuckSteps ∧
      (stuckSteps[0]?.bind reading?).map (·.contains finalitySeries) = some true ∧
      (judgeAll 1200 .blank stuckSteps).map Judgement.verdict =
        [.idle 0, .idle 1100, .progressed] ∧
      clockAfter 1200 stuckSteps 0 = some 100 ∧ clockAfter 1200 stuckSteps 2 = some 2300 := by
  decide +kernel

/-- A falling counter with a missed scrape, a gap, and no gap after that. -/
def fallingSteps : List Step :=
  [(counterAt 5, 100), (none, 130), (otherSeries, 160), (counterAt 5, 220), (counterAt 4, 300)]

/-- It is reported as progress over the gap, and then no more. -/
theorem progressed_fallingSteps :
    NeverRises (scrapedValues fallingSteps) ∧ TimesNeverFall fallingSteps ∧
      (∃ judgement, (judgeAll 1200 .blank fallingSteps)[3]? = some judgement ∧
        judgement.verdict = .progressed) ∧
      (∃ judgement, (judgeAll 1200 .blank fallingSteps)[4]? = some judgement ∧
        judgement.verdict ≠ .progressed) ∧
      clockAfter 1200 fallingSteps 4 = clockAfter 1200 fallingSteps 3 := by
  have hnever : NeverRises (scrapedValues fallingSteps) := by decide +kernel
  have htimes : TimesNeverFall fallingSteps := by decide
  obtain ⟨hverdicts, hclock⟩ := judgeAll_of_neverRises 1200 fallingSteps hnever
  have hgap : RisesOverGapAt fallingSteps 3 :=
    ⟨_, _, _, rfl, rfl, rfl, Or.inl ⟨by decide, _, rfl, by decide +kernel⟩⟩
  have hnext : ¬ RisesOverGapAt fallingSteps 4 := by
    rintro ⟨_, _, _, ⟨⟩, ⟨⟩, ⟨⟩, ⟨hlacks, -⟩ | ⟨hlacks, -⟩⟩
    · exact absurd hlacks (by decide)
    · exact absurd hlacks (by decide)
  refine ⟨hnever, htimes, ⟨_, rfl, (hverdicts 3 _ rfl).mpr hgap⟩,
    ⟨_, rfl, fun hprogressed => hnext ((hverdicts 4 _ rfl).mp hprogressed)⟩, ?_⟩
  refine hclock htimes 3 4 (by decide) (by decide) (by decide) ?_
  intro k hlt hle
  obtain rfl : k = 4 := Nat.le_antisymm hle hlt
  exact hnext

end ServiceWatch.Stall
