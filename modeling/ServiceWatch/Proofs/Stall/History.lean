import Mathlib.Order.Bounds.Basic
import ServiceWatch.Stall

/-!
# What a sequence of judgements says about its whole history

`Stall.judge` sees one memory and one scrape.  This file says what a sequence of judgements means
in terms of everything that came before.  Only the *readings* count, the steps with a scrape that
holds a series: the others say nothing, and leaving them out changes no other judgement
(`judgeAll_filter_hasReading`).

A reading *starts* the clock when it rises above the reading before it, or when it is the first and
there is no baseline.  The clock then shows the least time read since the latest start, and without
any start the least of all times read and the remembered one.  Times may repeat and go back, so
"least" cannot be replaced by "first".

## Strategy

`Law` is the statement about one reading.  Every judgement depends on the history only through the
memory that is carried into it, and `Carries` says what that memory knows of the history.  A step
that starts from a memory that carries the history obeys the law (`law_of_carries`) and leaves a
memory that carries one reading more (`carries_succ`).
-/

namespace ServiceWatch.Stall

/-- A step of a sequence: the scrape, if there is one, and the time. -/
abbrev Step := Option Scrape × UInt64

/-- The scrape of a step, unless it holds no series. -/
def reading? (step : Step) : Option Scrape :=
  step.1.filter fun scrape => !scrape.isEmpty

/-- Whether a step has something to judge. -/
def hasReading (step : Step) : Bool :=
  (reading? step).isSome

/-- The watched value and the time of every step that has something to judge. -/
def readings (steps : List Step) : List (Binary64 × UInt64) :=
  steps.filterMap fun step => (reading? step).map fun scrape => (watched scrape, step.2)

/-! ### One judgement -/

/-- The start of the clock and the verdict for a value that was read. -/
def tick (threshold : UInt64) (value : Binary64) (memory : Memory) (now : UInt64) :
    UInt64 × Verdict :=
  match memory.last.finality with
  | some baseline => compare threshold value baseline memory.lastSeen now
  | none => (now, .idle 0)

/-- The verdict on a clock that was not set in this step. -/
def verdictSince (threshold start now : UInt64) : Verdict :=
  if threshold < now - start then .stalled (now - start) else .idle (now - start)

theorem judge_of_reading_eq_none {step : Step} (hstep : reading? step = none)
    (threshold : UInt64) (memory : Memory) :
    judge threshold step.1 memory step.2 = ⟨.unknown, none⟩ := by
  unfold reading? at hstep
  unfold judge
  rw [hstep]

theorem judge_of_reading_eq_some {step : Step} {scrape : Scrape}
    (hstep : reading? step = some scrape) (threshold : UInt64) (memory : Memory) :
    judge threshold step.1 memory step.2 =
      ⟨(tick threshold (watched scrape) memory step.2).2,
        some { last := .ofScrape scrape
               lastSeen := some (tick threshold (watched scrape) memory step.2).1
               updated := some step.2 }⟩ := by
  unfold reading? at hstep
  unfold judge tick
  cases memory.last.finality with
  | none => simp [hstep]
  | some baseline => simp [hstep]

theorem tick_of_rise {memory : Memory} {baseline value : Binary64}
    (hbaseline : memory.last.finality = some baseline) (hrise : baseline.isLess value = true)
    (threshold now : UInt64) : tick threshold value memory now = (now, .progressed) := by
  simp [tick, hbaseline, compare, hrise]

theorem tick_of_no_baseline {memory : Memory} (hbaseline : memory.last.finality = none)
    (threshold now : UInt64) (value : Binary64) :
    tick threshold value memory now = (now, .idle 0) := by
  simp [tick, hbaseline]

theorem tick_of_no_rise {memory : Memory} {baseline value : Binary64}
    (hbaseline : memory.last.finality = some baseline) (hrise : baseline.isLess value = false)
    (threshold now : UInt64) :
    tick threshold value memory now =
      (min (memory.lastSeen.getD now) now,
        verdictSince threshold (min (memory.lastSeen.getD now) now) now) := by
  simp [tick, hbaseline, compare, hrise, verdictSince]

theorem tick_le (threshold : UInt64) (value : Binary64) (memory : Memory) (now : UInt64) :
    (tick threshold value memory now).1 ≤ now := by
  cases hbaseline : memory.last.finality with
  | none =>
      rw [tick_of_no_baseline hbaseline]
      exact UInt64.le_refl now
  | some baseline =>
      cases hrise : baseline.isLess value with
      | true =>
          rw [tick_of_rise hbaseline hrise]
          exact UInt64.le_refl now
      | false =>
          rw [tick_of_no_rise hbaseline hrise]
          exact Std.min_le_right

/-- A clock that shows the present time is not late, whatever the threshold. -/
theorem verdictSince_self (threshold now : UInt64) :
    verdictSince threshold now now = .idle 0 := by
  have hlate : ¬ threshold < 0 := by simp
  simp [verdictSince, hlate]

/-! ### Sequences -/

/-- The memory that a sequence of steps leaves. -/
def memoryAfter (threshold : UInt64) (memory : Memory) (steps : List Step) : Memory :=
  steps.foldl (fun carried step =>
    (judge threshold step.1 carried step.2).carried carried) memory

theorem length_judgeAll (threshold : UInt64) (memory : Memory) (steps : List Step) :
    (judgeAll threshold memory steps).length = steps.length := by
  induction steps generalizing memory with
  | nil => rfl
  | cons step rest ih => simp [judgeAll, ih]

theorem getElem?_judgeAll (threshold : UInt64) (memory : Memory) (steps : List Step) (i : ℕ) :
    (judgeAll threshold memory steps)[i]? =
      (steps[i]?).map fun step =>
        judge threshold step.1 (memoryAfter threshold memory (steps.take i)) step.2 := by
  induction steps generalizing memory i with
  | nil => simp [judgeAll]
  | cons step rest ih =>
      cases i with
      | zero => simp [judgeAll, memoryAfter]
      | succ i =>
          simp only [judgeAll, List.getElem?_cons_succ, List.take_succ_cons]
          rw [ih]
          rfl

theorem memoryAfter_take_succ {threshold : UInt64} {memory : Memory} {steps : List Step} {i : ℕ}
    {step : Step} (hstep : steps[i]? = some step) :
    memoryAfter threshold memory (steps.take (i + 1)) =
      (judge threshold step.1 (memoryAfter threshold memory (steps.take i)) step.2).carried
        (memoryAfter threshold memory (steps.take i)) := by
  unfold memoryAfter
  rw [List.take_add_one, hstep, List.foldl_append]
  rfl

/-- Steps without a reading are judged unknown and leave the memory alone, so the judgements of the
others are those of the sequence without them. -/
theorem judgeAll_filter_hasReading (threshold : UInt64) (memory : Memory) (steps : List Step) :
    judgeAll threshold memory (steps.filter hasReading) =
      ((steps.zip (judgeAll threshold memory steps)).filter fun entry =>
        hasReading entry.1).map Prod.snd := by
  induction steps generalizing memory with
  | nil => rfl
  | cons step rest ih =>
      cases hread : reading? step with
      | none =>
          -- the step is left out, and without it the rest starts from the same memory
          have hskip : hasReading step = false := by simp [hasReading, hread]
          have hkept : (judge threshold step.1 memory step.2).carried memory = memory := by
            rw [judge_of_reading_eq_none hread]
            rfl
          simp only [judgeAll, List.zip_cons_cons, List.filter_cons, hskip, hkept]
          exact ih memory
      | some scrape =>
          have hkeep : hasReading step = true := by simp [hasReading, hread]
          simp only [judgeAll, List.zip_cons_cons, List.filter_cons, hkeep, if_true, List.map_cons]
          rw [ih]

theorem eq_unknown_of_mem_zip_judgeAll {threshold : UInt64} {memory : Memory} {steps : List Step}
    {step : Step} {judgement : Judgement}
    (hmem : (step, judgement) ∈ steps.zip (judgeAll threshold memory steps))
    (hstep : hasReading step = false) : judgement = ⟨.unknown, none⟩ := by
  have hnone : reading? step = none := by simpa [hasReading] using hstep
  obtain ⟨i, hi⟩ := List.mem_iff_getElem?.mp hmem
  obtain ⟨hat, hjudged⟩ := List.getElem?_zip_eq_some.mp hi
  simp only [getElem?_judgeAll, hat, Option.map_some, Option.some_inj] at hjudged
  rw [← hjudged, judge_of_reading_eq_none hnone]

/-- Every reading is that of a step which the filter keeps, at the same place. -/
theorem getElem?_filter_hasReading {steps : List Step} {i : ℕ} {value : Binary64} {now : UInt64}
    (hreading : (readings steps)[i]? = some (value, now)) :
    ∃ scrape step, (steps.filter hasReading)[i]? = some step ∧ reading? step = some scrape ∧
      watched scrape = value ∧ step.2 = now := by
  induction steps generalizing i with
  | nil => simp [readings] at hreading
  | cons step rest ih =>
      cases hread : reading? step with
      | none =>
          have hskip : hasReading step = false := by simp [hasReading, hread]
          rw [List.filter_cons_of_neg (by simp [hskip])]
          exact ih (by simpa [readings, hread] using hreading)
      | some scrape =>
          have hkeep : hasReading step = true := by simp [hasReading, hread]
          rw [List.filter_cons_of_pos hkeep]
          cases i with
          | zero =>
              obtain ⟨hvalue, hnow⟩ : watched scrape = value ∧ step.2 = now := by
                simpa [readings, hread] using hreading
              exact ⟨scrape, step, rfl, hread, hvalue, hnow⟩
          | succ i => exact ih (by simpa [readings, hread] using hreading)

/-! ### The history -/

section

variable (memory : Memory) (history : List (Binary64 × UInt64))

/-- The value that a reading is compared with: the remembered one for the first, and the value read
before it for every other. -/
def baselineAt : ℕ → Option Binary64
  | 0 => memory.last.finality
  | i + 1 => (history[i]?).map Prod.fst

/-- The reading is greater than what it is compared with. -/
def RisesAt (i : ℕ) : Prop :=
  ∃ baseline value now, baselineAt memory history i = some baseline ∧
    history[i]? = some (value, now) ∧ baseline.isLess value = true

/-- The reading sets the clock: it rises, or it is the first and there was no baseline. -/
def StartsAt (i : ℕ) : Prop :=
  i = 0 ∧ memory.last.finality = none ∨ RisesAt memory history i

/-- The last reading up to `i` that sets the clock is `j`. -/
def IsLatestStart (j i : ℕ) : Prop :=
  j ≤ i ∧ StartsAt memory history j ∧ ∀ k, j < k → k ≤ i → ¬ StartsAt memory history k

/-- The times of the readings from `j` to `i`. -/
def timesBetween (j i : ℕ) : Set UInt64 :=
  {time | ∃ k value, j ≤ k ∧ k ≤ i ∧ history[k]? = some (value, time)}

/-- The times that reading `i` chooses the start of the clock from: those read since the latest
start, and without a start all times read and the remembered one. -/
def clockTimes (i : ℕ) : Set UInt64 :=
  {time | (∃ j, IsLatestStart memory history j i ∧ time ∈ timesBetween history j i) ∨
    (∀ j ≤ i, ¬ StartsAt memory history j) ∧
      (time ∈ timesBetween history 0 i ∨ memory.lastSeen = some time)}

/-- What a carried memory knows of the readings before `i`. -/
structure Carries (i : ℕ) (carried : Memory) : Prop where
  baseline : carried.last.finality = baselineAt memory history i
  first : i = 0 → carried.lastSeen = memory.lastSeen
  later : ∀ j, i = j + 1 →
    ∃ start, carried.lastSeen = some start ∧ IsLeast (clockTimes memory history j) start

end

variable {memory : Memory} {history : List (Binary64 × UInt64)} {i : ℕ} {value : Binary64}
  {now : UInt64}

/-! ### The times to choose from, step by step -/

theorem mem_timesBetween_self (hread : history[i]? = some (value, now)) {time : UInt64} :
    time ∈ timesBetween history i i ↔ time = now := by
  constructor
  · rintro ⟨k, read, hle, hge, hk⟩
    obtain rfl : k = i := Nat.le_antisymm hge hle
    rw [hread] at hk
    injection hk with heq
    exact (congrArg Prod.snd heq).symm
  · rintro rfl
    exact ⟨i, value, le_rfl, le_rfl, hread⟩

theorem mem_timesBetween_succ {j : ℕ} (hj : j ≤ i + 1)
    (hread : history[i + 1]? = some (value, now)) {time : UInt64} :
    time ∈ timesBetween history j (i + 1) ↔ time = now ∨ time ∈ timesBetween history j i := by
  constructor
  · rintro ⟨k, read, hle, hge, hk⟩
    rcases Nat.lt_or_ge i k with hlt | hle'
    · obtain rfl : k = i + 1 := Nat.le_antisymm hge hlt
      exact Or.inl ((mem_timesBetween_self hread).mp ⟨i + 1, read, le_rfl, le_rfl, hk⟩)
    · exact Or.inr ⟨k, read, hle, hle', hk⟩
  · rintro (rfl | ⟨k, read, hle, hge, hk⟩)
    · exact ⟨i + 1, value, hj, le_rfl, hread⟩
    · exact ⟨k, read, hle, hge.trans i.le_succ, hk⟩

theorem clockTimes_of_starts (hstart : StartsAt memory history i)
    (hread : history[i]? = some (value, now)) :
    clockTimes memory history i = {time | time = now} := by
  have hlatest : ∀ j, IsLatestStart memory history j i ↔ j = i := by
    intro j
    constructor
    · rintro ⟨hle, -, hlast⟩
      rcases hle.lt_or_eq with hlt | heq
      · exact absurd hstart (hlast i hlt le_rfl)
      · exact heq
    · rintro rfl
      exact ⟨le_rfl, hstart, fun k hlt hle => absurd hle (not_le_of_gt hlt)⟩
  ext time
  simp only [clockTimes, hlatest, Set.mem_ofPred_eq, exists_eq_left, mem_timesBetween_self hread]
  constructor
  · rintro (heq | ⟨hnone, -⟩)
    · exact heq
    · exact absurd hstart (hnone i le_rfl)
  · exact Or.inl

theorem clockTimes_zero_of_not_starts (hstart : ¬ StartsAt memory history 0)
    (hread : history[0]? = some (value, now)) :
    clockTimes memory history 0 = {time | time = now ∨ memory.lastSeen = some time} := by
  ext time
  simp only [clockTimes, Set.mem_ofPred_eq, mem_timesBetween_self hread]
  constructor
  · rintro (⟨j, ⟨hle, hj, -⟩, -⟩ | ⟨-, htime⟩)
    · exact absurd (Nat.le_zero.mp hle ▸ hj) hstart
    · exact htime
  · intro htime
    exact Or.inr ⟨fun j hle => Nat.le_zero.mp hle ▸ hstart, htime⟩

theorem isLatestStart_succ_iff (hstart : ¬ StartsAt memory history (i + 1)) (j : ℕ) :
    IsLatestStart memory history j (i + 1) ↔ IsLatestStart memory history j i := by
  constructor
  · rintro ⟨hle, hj, hlast⟩
    rcases hle.lt_or_eq with hlt | rfl
    · exact ⟨Nat.le_of_lt_succ hlt, hj, fun k hk hle => hlast k hk (hle.trans i.le_succ)⟩
    · exact absurd hj hstart
  · rintro ⟨hle, hj, hlast⟩
    refine ⟨hle.trans i.le_succ, hj, ?_⟩
    intro k hk hle
    rcases hle.lt_or_eq with hlt | rfl
    · exact hlast k hk (Nat.le_of_lt_succ hlt)
    · exact hstart

theorem forall_not_startsAt_succ_iff (hstart : ¬ StartsAt memory history (i + 1)) :
    (∀ j ≤ i + 1, ¬ StartsAt memory history j) ↔ ∀ j ≤ i, ¬ StartsAt memory history j := by
  constructor
  · intro hnone j hle
    exact hnone j (hle.trans i.le_succ)
  · intro hnone j hle
    rcases hle.lt_or_eq with hlt | rfl
    · exact hnone j (Nat.le_of_lt_succ hlt)
    · exact hstart

/-- A reading that does not set the clock adds its time to those to choose from. -/
theorem clockTimes_succ_of_not_starts (hstart : ¬ StartsAt memory history (i + 1))
    (hread : history[i + 1]? = some (value, now))
    (hprevious : (clockTimes memory history i).Nonempty) :
    clockTimes memory history (i + 1) =
      {time | time = now ∨ time ∈ clockTimes memory history i} := by
  ext time
  simp only [clockTimes, isLatestStart_succ_iff hstart, forall_not_startsAt_succ_iff hstart,
    Set.mem_ofPred_eq, mem_timesBetween_succ (Nat.zero_le (i + 1)) hread]
  constructor
  · rintro (⟨j, hj, htime⟩ | ⟨hnone, (heq | htime) | hlast⟩)
    · rcases (mem_timesBetween_succ (hj.1.trans i.le_succ) hread).mp htime with heq | htime
      · exact Or.inl heq
      · exact Or.inr (Or.inl ⟨j, hj, htime⟩)
    · exact Or.inl heq
    · exact Or.inr (Or.inr ⟨hnone, Or.inl htime⟩)
    · exact Or.inr (Or.inr ⟨hnone, Or.inr hlast⟩)
  · rintro (heq | ⟨j, hj, htime⟩ | ⟨hnone, htime | hlast⟩)
    · -- the present time is among those since the latest start, or among all if there was none
      obtain ⟨_, ⟨j, hj, -⟩ | ⟨hnone, -⟩⟩ := hprevious
      · exact Or.inl ⟨j, hj, (mem_timesBetween_succ (hj.1.trans i.le_succ) hread).mpr (Or.inl heq)⟩
      · exact Or.inr ⟨hnone, Or.inl (Or.inl heq)⟩
    · exact Or.inl ⟨j, hj, (mem_timesBetween_succ (hj.1.trans i.le_succ) hread).mpr (Or.inr htime)⟩
    · exact Or.inr ⟨hnone, Or.inl (Or.inr htime)⟩
    · exact Or.inr ⟨hnone, Or.inr hlast⟩

theorem isLeast_one_time (now : UInt64) : IsLeast {time | time = now} now := by
  refine ⟨rfl, ?_⟩
  rintro time rfl
  exact UInt64.le_refl time

/-- The least of some times and one more. -/
theorem isLeast_min_of_isLeast {times : Set UInt64} {start : UInt64} (hleast : IsLeast times start)
    (now : UInt64) : IsLeast {time | time = now ∨ time ∈ times} (min start now) := by
  constructor
  · rcases Std.min_eq_or (a := start) (b := now) with heq | heq
    · exact Or.inr (by rw [heq]; exact hleast.1)
    · exact Or.inl heq
  · rintro time (rfl | htime)
    · exact Std.min_le_right
    · exact UInt64.le_trans Std.min_le_left (hleast.2 htime)

/-! ### A step keeps the law -/

theorem risesAt_iff {baseline : Binary64} (hbaseline : baselineAt memory history i = some baseline)
    (hread : history[i]? = some (value, now)) :
    RisesAt memory history i ↔ baseline.isLess value = true := by
  constructor
  · rintro ⟨previous, read, time, hprevious, hat, hless⟩
    rw [hbaseline] at hprevious
    rw [hread] at hat
    injection hprevious with hprevious
    injection hat with hat
    injection hat with hvalue
    rw [hprevious, hvalue]
    exact hless
  · intro hless
    exact ⟨baseline, value, now, hbaseline, hread, hless⟩

/-- Only the first reading can be without a baseline. -/
theorem eq_zero_of_baselineAt_eq_none (hbaseline : baselineAt memory history i = none)
    (hread : history[i]? = some (value, now)) : i = 0 := by
  cases i with
  | zero => rfl
  | succ i =>
      have hshort : history.length ≤ i := by simpa [baselineAt] using hbaseline
      have hlong : i + 1 < history.length := (List.getElem?_eq_some_iff.mp hread).1
      omega

/-- Without a rise and with a baseline, the clock is the earlier of the carried one and now. -/
theorem isLeast_of_not_starts {carried : Memory} (hcarries : Carries memory history i carried)
    (hread : history[i]? = some (value, now)) (hstart : ¬ StartsAt memory history i) :
    IsLeast (clockTimes memory history i) (min (carried.lastSeen.getD now) now) := by
  cases i with
  | zero =>
      rw [clockTimes_zero_of_not_starts hstart hread, hcarries.first rfl]
      cases hlast : memory.lastSeen with
      | none => simpa [Std.min_self] using isLeast_one_time now
      | some start =>
          -- a remembered time is one to choose from before anything is read
          have heq : {time | time = now ∨ some start = some time} =
              {time | time = now ∨ time ∈ {time | time = start}} := by
            ext time
            simp [eq_comm]
          rw [heq]
          exact isLeast_min_of_isLeast (isLeast_one_time start) now
  | succ i =>
      obtain ⟨start, hlast, hleast⟩ := hcarries.later i rfl
      rw [clockTimes_succ_of_not_starts hstart hread ⟨start, hleast.1⟩, hlast]
      exact isLeast_min_of_isLeast hleast now

/-- What the clock and the verdict of a reading say about the history up to it. -/
structure Law (threshold : UInt64) (memory : Memory) (history : List (Binary64 × UInt64)) (i : ℕ)
    (now : UInt64) (clock : UInt64 × Verdict) : Prop where
  isLeast : IsLeast (clockTimes memory history i) clock.1
  progressed_iff : clock.2 = .progressed ↔ RisesAt memory history i
  otherwise : ¬ RisesAt memory history i → clock.2 = verdictSince threshold clock.1 now

theorem verdictSince_ne_progressed (threshold start now : UInt64) :
    verdictSince threshold start now ≠ .progressed := by
  unfold verdictSince
  split <;> simp

/-- A reading that is judged from a memory that carries the history obeys the law. -/
theorem law_of_carries {carried : Memory} (hcarries : Carries memory history i carried)
    (hread : history[i]? = some (value, now)) (threshold : UInt64) :
    Law threshold memory history i now (tick threshold value carried now) := by
  cases hbaseline : baselineAt memory history i with
  | none =>
      have hfirst : i = 0 := eq_zero_of_baselineAt_eq_none hbaseline hread
      subst hfirst
      have hstart : StartsAt memory history 0 := Or.inl ⟨rfl, hbaseline⟩
      have hrise : ¬ RisesAt memory history 0 := by
        rintro ⟨previous, _, _, hprevious, -⟩
        rw [hbaseline] at hprevious
        simp at hprevious
      rw [tick_of_no_baseline (hcarries.baseline.trans hbaseline)]
      refine ⟨?_, by simp [hrise], fun _ => (verdictSince_self threshold now).symm⟩
      rw [clockTimes_of_starts hstart hread]
      exact isLeast_one_time now
  | some baseline =>
      have hcarried := hcarries.baseline.trans hbaseline
      have hiff := risesAt_iff hbaseline hread
      cases hless : baseline.isLess value with
      | true =>
          have hrise : RisesAt memory history i := hiff.mpr hless
          rw [tick_of_rise hcarried hless]
          refine ⟨?_, by simp [hrise], fun hnot => absurd hrise hnot⟩
          rw [clockTimes_of_starts (Or.inr hrise) hread]
          exact isLeast_one_time now
      | false =>
          -- there is a baseline, so the reading could only have set the clock by rising
          have hrise : ¬ RisesAt memory history i := by simp [hiff, hless]
          have hstart : ¬ StartsAt memory history i := by
            rintro (⟨rfl, hnone⟩ | hrises)
            · rw [baselineAt, hnone] at hbaseline
              simp at hbaseline
            · exact hrise hrises
          rw [tick_of_no_rise hcarried hless]
          exact ⟨isLeast_of_not_starts hcarries hread hstart,
            by simp [hrise, verdictSince_ne_progressed], fun _ => rfl⟩

/-- What a reading leaves carries the history with that reading. -/
theorem carries_succ {next : Memory} {start : UInt64}
    (hread : history[i]? = some (value, now)) (hvalue : next.last.finality = some value)
    (hlast : next.lastSeen = some start) (hleast : IsLeast (clockTimes memory history i) start) :
    Carries memory history (i + 1) next where
  baseline := by rw [hvalue, baselineAt, hread]; rfl
  first := by simp
  later := by
    intro j hj
    obtain rfl : i = j := Nat.succ.inj hj
    exact ⟨start, hlast, hleast⟩

/-- The memory that is carried into reading `i` carries the history before it. -/
theorem carries_memoryAfter (threshold : UInt64) (memory : Memory) (steps : List Step) {i : ℕ}
    (hi : i ≤ (readings steps).length) :
    Carries memory (readings steps) i
      (memoryAfter threshold memory ((steps.filter hasReading).take i)) := by
  -- the induction is on the readings, which are the steps that the filter keeps
  induction i with
  | zero => exact ⟨rfl, fun _ => rfl, by simp⟩
  | succ i ih =>
      have hread : (readings steps)[i]? = some (readings steps)[i] := List.getElem?_eq_getElem hi
      obtain ⟨scrape, step, hstep, hscrape, hvalue, hnow⟩ := getElem?_filter_hasReading hread
      have hlaw := law_of_carries (ih (Nat.le_of_succ_le hi)) hread threshold
      rw [memoryAfter_take_succ hstep, judge_of_reading_eq_some hscrape, hvalue, hnow]
      exact carries_succ hread (congrArg some hvalue) rfl hlaw.isLeast

/-! ### The whole history -/

theorem clockTimes_of_isLatestStart {j : ℕ} (hj : IsLatestStart memory history j i) :
    clockTimes memory history i = timesBetween history j i := by
  have hunique : ∀ k, IsLatestStart memory history k i → k = j := by
    rintro k ⟨hle, hk, hlast⟩
    rcases Nat.lt_trichotomy k j with hlt | heq | hlt
    · exact absurd hj.2.1 (hlast j hlt hj.1)
    · exact heq
    · exact absurd hk (hj.2.2 k hlt hle)
  ext time
  constructor
  · rintro (⟨k, hk, htime⟩ | ⟨hnone, -⟩)
    · exact hunique k hk ▸ htime
    · exact absurd hj.2.1 (hnone j hj.1)
  · intro htime
    exact Or.inl ⟨j, hj, htime⟩

theorem clockTimes_of_no_start (hnone : ∀ j ≤ i, ¬ StartsAt memory history j) :
    clockTimes memory history i =
      timesBetween history 0 i ∪ {time | memory.lastSeen = some time} := by
  ext time
  constructor
  · rintro (⟨j, hj, -⟩ | ⟨-, htime⟩)
    · exact absurd hj.2.1 (hnone j hj.1)
    · exact htime
  · intro htime
    exact Or.inr ⟨hnone, htime⟩

/-- **A sequence of judgements, read off its whole history.**  A step without a reading is judged
unknown and leaves nothing, and the other judgements are those of the sequence without such steps.
Reading `i` stores the counters of its scrape and its time, and the least time since the latest
start, or without a start the least of all times read and the remembered one; it is judged
progressed exactly when it rises above the reading before it, and otherwise by the time that has
passed since the stored one. -/
theorem judgeAll_reads_history (threshold : UInt64) (memory : Memory) (steps : List Step) :
    (judgeAll threshold memory steps).length = steps.length ∧
      (∀ step judgement, (step, judgement) ∈ steps.zip (judgeAll threshold memory steps) →
        hasReading step = false → judgement = ⟨.unknown, none⟩) ∧
      judgeAll threshold memory (steps.filter hasReading) =
        ((steps.zip (judgeAll threshold memory steps)).filter fun entry =>
          hasReading entry.1).map Prod.snd ∧
      ∀ i value now, (readings steps)[i]? = some (value, now) →
        ∃ verdict start scrape, (steps.filter hasReading)[i]? = some (some scrape, now) ∧
          watched scrape = value ∧
          (judgeAll threshold memory (steps.filter hasReading))[i]? =
            some ⟨verdict, some ⟨.ofScrape scrape, some start, some now⟩⟩ ∧
          (∀ j, IsLatestStart memory (readings steps) j i →
            IsLeast (timesBetween (readings steps) j i) start) ∧
          ((∀ j ≤ i, ¬ StartsAt memory (readings steps) j) →
            IsLeast (timesBetween (readings steps) 0 i ∪ {time | memory.lastSeen = some time})
              start) ∧
          (verdict = .progressed ↔ RisesAt memory (readings steps) i) ∧
          (¬ RisesAt memory (readings steps) i → verdict = verdictSince threshold start now) := by
  refine ⟨length_judgeAll threshold memory steps,
    fun step judgement hmem hstep => eq_unknown_of_mem_zip_judgeAll hmem hstep,
    judgeAll_filter_hasReading threshold memory steps, ?_⟩
  intro i value now hread
  obtain ⟨scrape, step, hstep, hscrape, hvalue, hnow⟩ := getElem?_filter_hasReading hread
  have hi : i < (readings steps).length := (List.getElem?_eq_some_iff.mp hread).1
  have hlaw := law_of_carries (carries_memoryAfter threshold memory steps hi.le) hread threshold
  have hpair : step = (some scrape, now) :=
    Prod.ext (Option.filter_eq_some_iff.mp hscrape).1 hnow
  refine ⟨_, _, scrape, hpair ▸ hstep, hvalue, ?_, fun j hj => ?_, fun hnone => ?_,
    hlaw.progressed_iff, hlaw.otherwise⟩
  · rw [getElem?_judgeAll, hstep, Option.map_some, judge_of_reading_eq_some hscrape, hvalue, hnow]
  · rw [← clockTimes_of_isLatestStart hj]
    exact hlaw.isLeast
  · rw [← clockTimes_of_no_start hnone]
    exact hlaw.isLeast

/-- A counter at five that is read at 100, missed at 50 and read again when the clock has gone back
to 90. -/
def pausedSteps : List Step :=
  [(some ⟨[(finalitySeries, .ofNat false 5)]⟩, 100), (none, 50),
    (some ⟨[(finalitySeries, .ofNat false 5)]⟩, 90)]

theorem not_startsAt_pausedSteps : ¬ StartsAt .blank (readings pausedSteps) 1 := by
  rintro (⟨hzero, -⟩ | ⟨baseline, value, now, hbaseline, hread, hless⟩)
  · exact absurd hzero (by decide)
  · have hfive : baselineAt .blank (readings pausedSteps) 1 = some (.ofNat false 5) := by
      decide +kernel
    have hsecond : (readings pausedSteps)[1]? = some (.ofNat false 5, 90) := by decide +kernel
    rw [hfive] at hbaseline
    rw [hsecond] at hread
    simp only [Option.some_inj, Prod.mk.injEq] at hbaseline hread
    rw [← hbaseline, ← hread.1] at hless
    exact absurd hless (by decide +kernel)

/-- The missed step is judged unknown, and the last one stores the earlier of the two times read. -/
theorem judgeAll_pausedSteps :
    hasReading (none, 50) = false ∧ (readings pausedSteps)[1]? = some (.ofNat false 5, 90) ∧
      IsLatestStart .blank (readings pausedSteps) 0 1 ∧
      (∀ judgement, ((none, 50), judgement) ∈
        pausedSteps.zip (judgeAll 1200 .blank pausedSteps) → judgement = ⟨.unknown, none⟩) ∧
      ∃ verdict start,
        (judgeAll 1200 .blank (pausedSteps.filter hasReading))[1]? =
            some ⟨verdict, some ⟨.ofScrape ⟨[(finalitySeries, .ofNat false 5)]⟩, some start,
              some 90⟩⟩ ∧
          IsLeast (timesBetween (readings pausedSteps) 0 1) start := by
  have hsecond : (readings pausedSteps)[1]? = some (.ofNat false 5, 90) := by decide +kernel
  have hlatest : IsLatestStart .blank (readings pausedSteps) 0 1 := by
    refine ⟨Nat.zero_le 1, Or.inl ⟨rfl, rfl⟩, ?_⟩
    intro k hlt hle
    obtain rfl : k = 1 := Nat.le_antisymm hle hlt
    exact not_startsAt_pausedSteps
  obtain ⟨-, hunknown, -, hreadings⟩ := judgeAll_reads_history 1200 .blank pausedSteps
  obtain ⟨verdict, start, scrape, hstep, -, hjudged, hsince, -⟩ := hreadings 1 _ _ hsecond
  have hscrape : (pausedSteps.filter hasReading)[1]? =
      some (some ⟨[(finalitySeries, .ofNat false 5)]⟩, 90) := by decide +kernel
  obtain rfl : scrape = ⟨[(finalitySeries, .ofNat false 5)]⟩ := by
    rw [hscrape] at hstep
    simpa [eq_comm] using hstep
  exact ⟨rfl, hsecond, hlatest, fun judgement hmem => hunknown _ judgement hmem rfl,
    verdict, start, hjudged, hsince 0 hlatest⟩

end ServiceWatch.Stall
