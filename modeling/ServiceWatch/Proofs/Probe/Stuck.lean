import ServiceWatch.Proofs.Endpoint
import ServiceWatch.Proofs.Probe.History
import ServiceWatch.Proofs.Stall.History

/-!
# A counter that is stuck

A probe runs again and again, each run saves, and each metrics answer shows the same finite value of
the watched counter.  The first run starts the clock.  Every later run compares the value with what
the text of the value is read as, since that is what the file gives back, so everything depends on
how these two compare.

If the value is not read as less, no run sees the counter rise: the clock keeps running from the
first run on, and the counter is stalled exactly from when the threshold has passed.  If it is read
as less, every run but the first sees it rise, however long it has been stuck.  Both occur.

## Strategy

One run at a time: what a run remembers is read as the memory that its judgement made, with the
value reread (`Scene.Runs.remembers`).  Then there are two inductions over the runs behind the
first, one for each way in which the comparison may turn out; what they carry along is the baseline,
and for a clock that is not restarted its start.
-/

namespace ServiceWatch.Probe

open Disk (Allows)
open Stall (tick verdictSince)

variable {settings : Settings} {before after : Disk} {scene : Scene} {outcome : Outcome}
  {body : String} {value again : Binary64} {start : UInt64} {runs rest : List Run} {first : Run}

/-! ### The clock -/

/-- The verdict on a counter that has not risen since `start`; nothing here wraps or is rounded. -/
def clock (minutes start now : UInt64) : Stall.Verdict :=
  if 60 * minutes.toNat < now.toNat - start.toNat then .stalled (now - start)
  else .idle (now - start)

theorem clock_self (minutes now : UInt64) : clock minutes now now = .idle 0 := by
  simp [clock]

theorem clock_ne_progressed (minutes start now : UInt64) :
    clock minutes start now ≠ .progressed := by
  unfold clock
  split <;> simp

/-- A threshold that does not fit is never reached, no more than the one that was meant. -/
theorem thresholdOfMinutes_lt_iff (minutes elapsed : UInt64) :
    Stall.thresholdOfMinutes minutes < elapsed ↔ 60 * minutes.toNat < elapsed.toNat := by
  have helapsed := elapsed.toNat_lt_size
  rw [UInt64.lt_iff_toNat_lt, Stall.thresholdOfMinutes]
  by_cases hfits : minutes.toNat * 60 < UInt64.size
  · have hproduct : (minutes * 60).toNat = minutes.toNat * 60 := Nat.mod_eq_of_lt hfits
    rw [if_pos hfits, hproduct, Nat.mul_comm]
  · have hgreatest : (0xFFFFFFFFFFFFFFFF : UInt64).toNat = UInt64.size - 1 := rfl
    rw [if_neg hfits, hgreatest]
    omega

theorem verdictSince_thresholdOfMinutes {now : UInt64} (hstart : start ≤ now) (minutes : UInt64) :
    verdictSince (Stall.thresholdOfMinutes minutes) start now = clock minutes start now := by
  unfold verdictSince clock
  simp only [thresholdOfMinutes_lt_iff, UInt64.toNat_sub_of_le _ _ hstart]

/-! ### One run -/

theorem judge_of_value (hmetrics : scene.metrics = .response 200 body)
    (hvalue : (Scrape.ofText body).value? finalitySeries = some value) (threshold : UInt64)
    (memory : Memory) :
    Stall.judge threshold scene.scrape memory scene.now =
      ⟨(tick threshold value memory scene.now).2,
        some { last := .ofScrape (Scrape.ofText body)
               lastSeen := some (tick threshold value memory scene.now).1
               updated := some scene.now }⟩ := by
  have hscrape : scene.scrape = some (Scrape.ofText body) := by
    rw [Scene.scrape, Answer.body?_eq_some_iff.mpr hmetrics]
    rfl
  have hnonempty : (Scrape.ofText body).isEmpty = false := by
    cases hentries : (Scrape.ofText body).entries with
    | nil =>
        rw [Scrape.value?, hentries] at hvalue
        exact absurd hvalue (by simp)
    | cons entry entries => simp [Scrape.isEmpty, hentries]
  have hreading : Stall.reading? (scene.scrape, scene.now) = some (Scrape.ofText body) := by
    simp [Stall.reading?, hscrape, hnonempty]
  have hwatched : Stall.watched (Scrape.ofText body) = value := by
    rw [Stall.watched, hvalue]
    rfl
  rw [← hwatched]
  exact Stall.judge_of_reading_eq_some hreading threshold memory

/-- A run that saves remembers what its value is read as, and when its clock was started. -/
theorem Scene.Runs.remembers (hruns : scene.Runs settings Allows before outcome after)
    (hsaved : outcome.isSaved = true) (hmetrics : scene.metrics = .response 200 body)
    (hvalue : (Scrape.ofText body).value? finalitySeries = some value) :
    outcome.verdict = (tick settings.stallThreshold value
        (Store.held before settings.statePath) scene.now).2 ∧
      (Store.held after settings.statePath).last.finality = Json.reread value ∧
      (Store.held after settings.statePath).lastSeen = some (tick settings.stallThreshold value
        (Store.held before settings.statePath) scene.now).1 := by
  obtain ⟨hverdict, ⟨next, -, hnext, hread⟩ | ⟨hunsaved, -⟩⟩ := hruns.file
  · rw [judge_of_value hmetrics hvalue] at hverdict hnext
    obtain rfl := Option.some.inj hnext
    rw [Store.held_of_read hread (Store.decode_encode _)]
    refine ⟨hverdict, ?_, rfl⟩
    simp only [Memory.reread, Counters.reread, Counters.ofScrape, hvalue, Option.getD_some,
      Option.bind_some]
  · rw [hsaved] at hunsaved
    exact absurd hunsaved (by simp)

/-- The first run of all starts the clock. -/
theorem Scene.Runs.starts (hruns : scene.Runs settings Allows before outcome after)
    (habsent : before.read settings.statePath = .error .notFound)
    (hsaved : outcome.isSaved = true) (hmetrics : scene.metrics = .response 200 body)
    (hvalue : (Scrape.ofText body).value? finalitySeries = some value) :
    outcome.verdict = .idle 0 ∧
      (Store.held after settings.statePath).last.finality = Json.reread value ∧
      (Store.held after settings.statePath).lastSeen = some scene.now := by
  have hblank : Store.held before settings.statePath = .blank := by
    apply Store.held_eq_blank
    intro content hread
    rw [habsent] at hread
    exact absurd hread (by simp)
  have hremembers := hruns.remembers hsaved hmetrics hvalue
  rw [hblank, Stall.tick_of_no_baseline rfl] at hremembers
  exact hremembers

/-! ### Runs with a baseline -/

/-- Every run saved, and showed the same value. -/
structure Shows (runs : List Run) (body : String) : Prop where
  saved : ∀ run ∈ runs, run.outcome.isSaved = true
  metrics : ∀ run ∈ runs, run.scene.metrics = .response 200 body

theorem Shows.tail (hshows : Shows (first :: rest) body) : Shows rest body :=
  ⟨fun run hrun => hshows.saved run (List.mem_cons_of_mem first hrun),
    fun run hrun => hshows.metrics run (List.mem_cons_of_mem first hrun)⟩

/-- A value that is not above what it is read as never restarts the clock. -/
theorem clock_of_not_rise (hhappens : Happens settings before (runs.map .run) after)
    (hshows : Shows runs body) (hvalue : (Scrape.ofText body).value? finalitySeries = some value)
    (hagain : Json.reread value = some again) (hrise : again.isLess value = false)
    (hbaseline : (Store.held before settings.statePath).last.finality = some again)
    (hstart : (Store.held before settings.statePath).lastSeen = some start)
    (hlater : ∀ run ∈ runs, start ≤ run.scene.now) :
    ∀ run ∈ runs, run.outcome.verdict = clock settings.stallMinutes start run.scene.now := by
  induction runs generalizing before with
  | nil => simp
  | cons first rest ih =>
      cases hhappens with
      | @run scene outcome _ _ between _ hruns hhappens =>
          obtain ⟨hverdict, hnext, hseen⟩ := hruns.remembers (hshows.saved _ List.mem_cons_self)
            (hshows.metrics _ List.mem_cons_self) hvalue
          have hnow : start ≤ scene.now := hlater _ List.mem_cons_self
          have hmin : min start scene.now = start := by simp [Std.min_eq_if, hnow]
          -- the start is the earlier of the stored one and now, which is the stored one
          rw [Stall.tick_of_no_rise hbaseline hrise, hstart, Option.getD_some,
            hmin] at hverdict hseen
          intro run hrun
          rcases List.mem_cons.mp hrun with rfl | hrun
          · rw [hverdict]
            exact verdictSince_thresholdOfMinutes hnow settings.stallMinutes
          · exact ih hhappens hshows.tail (hnext.trans hagain) hseen
              (fun other hother => hlater other (List.mem_cons_of_mem _ hother)) run hrun

/-- A value above what it is read as counts as progress in every run. -/
theorem progressed_of_rise (hhappens : Happens settings before (runs.map .run) after)
    (hshows : Shows runs body) (hvalue : (Scrape.ofText body).value? finalitySeries = some value)
    (hagain : Json.reread value = some again) (hrise : again.isLess value = true)
    (hbaseline : (Store.held before settings.statePath).last.finality = some again) :
    ∀ run ∈ runs, run.outcome.verdict = .progressed := by
  induction runs generalizing before with
  | nil => simp
  | cons first rest ih =>
      cases hhappens with
      | run hruns hhappens =>
          obtain ⟨hverdict, hnext, -⟩ := hruns.remembers (hshows.saved _ List.mem_cons_self)
            (hshows.metrics _ List.mem_cons_self) hvalue
          rw [Stall.tick_of_rise hbaseline hrise] at hverdict
          intro run hrun
          rcases List.mem_cons.mp hrun with rfl | hrun
          · exact hverdict
          · exact ih hhappens hshows.tail (hnext.trans hagain) run hrun

/-! ### All runs -/

/-- **Whether a stuck counter is found depends on how its text is read, and on nothing else.**  The
runs are told to be stuck and stalled as they should exactly when there is one run only, or the
value is not read as less than it is; otherwise every run but the first sees the counter rise. -/
theorem verdicts_of_stuck_counter
    (hhappens : Happens settings before ((first :: rest).map .run) after)
    (habsent : before.read settings.statePath = .error .notFound)
    (hshows : Shows (first :: rest) body)
    (htimes : ((first :: rest).map fun run => run.scene.now).Pairwise (· ≤ ·))
    (hvalue : (Scrape.ofText body).value? finalitySeries = some value)
    (hfinite : value.isFinite = true) :
    ∃ again, Json.reread value = some again ∧
      ((∀ run ∈ first :: rest,
          run.outcome.verdict = clock settings.stallMinutes first.scene.now run.scene.now) ↔
        rest = [] ∨ again.isLess value = false) ∧
      (again.isLess value = true →
        first.outcome.verdict = .idle 0 ∧
          ∀ run ∈ rest, run.outcome.verdict = .progressed) := by
  obtain ⟨again, hagain, -⟩ := Json.readBinary64_floatText hfinite
  refine ⟨again, hagain, ?_⟩
  cases hhappens with
  | @run scene outcome _ _ between _ hruns hhappens =>
      obtain ⟨hverdict, hnext, hseen⟩ := hruns.starts habsent
        (hshows.saved _ List.mem_cons_self) (hshows.metrics _ List.mem_cons_self) hvalue
      have hlater : ∀ run ∈ rest, scene.now ≤ run.scene.now := by
        intro run hrun
        exact (List.pairwise_cons.mp htimes).1 _ (List.mem_map_of_mem hrun)
      have hrise : again.isLess value = true →
          ∀ run ∈ rest, run.outcome.verdict = .progressed := by
        intro hless
        exact progressed_of_rise hhappens hshows.tail hvalue hagain hless (hnext.trans hagain)
      refine ⟨⟨?_, ?_⟩, fun hless => ⟨hverdict, hrise hless⟩⟩
      · intro hclock
        cases rest with
        | nil => exact Or.inl rfl
        | cons second rest =>
            -- a second run that sees a rise is not told what the clock says
            apply Or.inr
            rw [Bool.eq_false_iff]
            intro hless
            have hsecond := hclock second (List.mem_cons_of_mem _ List.mem_cons_self)
            rw [hrise hless second List.mem_cons_self] at hsecond
            exact clock_ne_progressed _ _ _ hsecond.symm
      · intro hsound run hrun
        rcases List.mem_cons.mp hrun with rfl | hrun
        · rw [hverdict, clock_self]
        · rcases hsound with rfl | hless
          · exact absurd hrun List.not_mem_nil
          · exact clock_of_not_rise hhappens hshows.tail hvalue hagain hless (hnext.trans hagain)
              hseen hlater run hrun

/-- A value that is read as less than it is. -/
def slipping : Binary64 := .ofNat false 2212610047109873

/-- The watched counter has that value. -/
def slippingAt : UInt64 → Scene := wellAt "finality_events_total 2212610047109873\n"

/-- Here the counter has stood still for 2000 seconds, with a threshold of 1200. -/
theorem progressed_of_slipping :
    (∃ again, Json.reread slipping = some again ∧ again.isLess slipping = true) ∧
      (performAll besideIt ⟨[], []⟩ [slippingAt 1000, slippingAt 3000]).1.map
          (fun run => run.outcome.verdict) = [.idle 0, .progressed] := by
  have hslips : (Json.reread slipping).map (fun again => again.isLess slipping) = some true := by
    decide +kernel
  obtain ⟨again, hagain, hless⟩ := Option.map_eq_some_iff.mp hslips
  refine ⟨⟨again, hagain, hless⟩, ?_⟩
  have hhappens := happens_performAll besideIt ⟨[], []⟩ [slippingAt 1000, slippingAt 3000]
  have hsaved : ∀ run ∈ (performAll besideIt ⟨[], []⟩ [slippingAt 1000, slippingAt 3000]).1,
      run.outcome.isSaved = true := by
    decide +kernel
  have hmetrics : ∀ run ∈ (performAll besideIt ⟨[], []⟩ [slippingAt 1000, slippingAt 3000]).1,
      run.scene.metrics = .response 200 "finality_events_total 2212610047109873\n" := by
    simp [performAll_cons, performAll_nil, slippingAt, wellAt]
  have htimes : ((performAll besideIt ⟨[], []⟩ [slippingAt 1000, slippingAt 3000]).1.map
      fun run => run.scene.now).Pairwise (· ≤ ·) := by
    simp [performAll_cons, performAll_nil, slippingAt, wellAt]
  have habsent : Disk.read ⟨[], []⟩ besideIt.statePath = .error .notFound := by decide +kernel
  have hvalue : (Scrape.ofText "finality_events_total 2212610047109873\n").value? finalitySeries =
      some slipping := by
    decide +kernel
  rw [performAll_cons, performAll_cons, performAll_nil] at hhappens hsaved hmetrics htimes ⊢
  obtain ⟨other, hother, -, hrise⟩ := verdicts_of_stuck_counter hhappens habsent ⟨hsaved, hmetrics⟩
    htimes hvalue (by decide +kernel)
  rw [hagain] at hother
  obtain rfl := Option.some.inj hother
  obtain ⟨hfirst, hrest⟩ := hrise hless
  rw [List.map_cons, List.map_cons, List.map_nil, hfirst, hrest _ List.mem_cons_self]

end ServiceWatch.Probe
