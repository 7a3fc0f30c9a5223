import ServiceWatch.Proofs.Probe.History
import ServiceWatch.Proofs.Probe.Report

/-!
# What the runs leave in the file

Behind any number of runs, the file is the document of a whole memory that the latest run with a
save left (`Memory.IsLeftAt`), or no run has saved and nothing has happened to the file
(`file_of_runs`).  Once a run has saved, every later run finds a memory that it can read, whatever
was scraped in between: a counter that is no finite number is written as absent.

That nothing has happened to the file is not that the same is read at its path.  A save that fails
may have made directories first, and a path that steps back from one of these comes upon a file that
was there all along (`file_changes_steppingBack`).  On a path that is steady the same is read.
-/

namespace ServiceWatch

/-- A memory as a run at the time `now` leaves it: every counter has a value, and the clock was
started by then. -/
structure Memory.IsLeftAt (memory : Memory) (now : UInt64) : Prop where
  finality : memory.last.finality.isSome = true
  received : memory.last.received.isSome = true
  verified : memory.last.verified.isSome = true
  updated : memory.updated = some now
  lastSeen : ∃ start, memory.lastSeen = some start ∧ start ≤ now

theorem Stall.isLeftAt_of_judge_next {threshold now : UInt64} {scrape : Option Scrape}
    {memory next : Memory} (hnext : (judge threshold scrape memory now).next = some next) :
    next.IsLeftAt now := by
  cases hread : reading? (scrape, now) with
  | none =>
      rw [judge_of_reading_eq_none hread threshold memory] at hnext
      exact absurd hnext (by simp)
  | some taken =>
      rw [judge_of_reading_eq_some hread threshold memory] at hnext
      obtain rfl := Option.some.inj hnext
      exact ⟨rfl, rfl, rfl, rfl, _, rfl, tick_le threshold _ memory now⟩

namespace Probe

open Disk (Allows)

variable {settings : Settings} {before after : Disk} {scene : Scene} {outcome : Outcome}
  {runs : List Run}

/-! ### One run -/

/-- A run leaves a memory of its time in the file, or touches nothing but a draft. -/
theorem Scene.Runs.leaves (hruns : scene.Runs settings Allows before outcome after) :
    (outcome.isSaved = true ∧ ∃ memory,
        after.read settings.statePath = .ok (Store.encode memory) ∧ memory.IsLeftAt scene.now) ∨
      outcome.isSaved = false ∧ Store.Spares settings.statePath
        (Set.range (Store.draftPath settings.statePath)) before after := by
  obtain ⟨-, ⟨next, hsaved, hnext, hread⟩ | ⟨hsaved, hspares⟩⟩ := hruns.file
  · exact Or.inl ⟨hsaved, next, hread, Stall.isLeftAt_of_judge_next hnext⟩
  · exact Or.inr ⟨hsaved, hspares.mono (by simp)⟩

/-- A document that was saved raises no concern. -/
theorem Scene.Runs.isReadable (hruns : scene.Runs settings Allows before outcome after)
    {memory : Memory} (hread : before.read settings.statePath = .ok (Store.encode memory))
    (reason : String) : .memoryUnreadable reason ∉ outcome.report.concerns := by
  obtain ⟨reply, between, judgement, attempt, ⟨rfl, rfl⟩, -, -, -, -, hconcerned⟩ :=
    hruns.concludes
  rw [hconcerned, hread]
  have hdocument : Memory.ofDocument (Store.encode memory) = .ok memory.reread :=
    Memory.ofDocument_compact memory
  rintro (⟨refusal, hrefused, -⟩ | ⟨content, failure, hcontent, hfailure, -⟩)
  · exact absurd hrefused (by simp)
  · obtain rfl := Except.ok.inj hcontent
    rw [hdocument] at hfailure
    exact absurd hfailure (by simp)

/-! ### Sequences of runs -/

/-- The latest run that saved. -/
def lastSaved (runs : List Run) : Option Run :=
  (runs.filter fun run => run.outcome.isSaved).getLast?

/-- What a sequence of runs did to the file. -/
def Leaves (path : String) (runs : List Run) (before after : Disk) : Prop :=
  match lastSaved runs with
  | some run => ∃ memory, after.read path = .ok (Store.encode memory) ∧
      memory.IsLeftAt run.scene.now
  | none => Store.Spares path (Set.range (Store.draftPath path)) before after

theorem lastSaved_cons (run : Run) (rest : List Run) :
    lastSaved (run :: rest) =
      (lastSaved rest).or (if run.outcome.isSaved then some run else none) := by
  unfold lastSaved
  rw [List.filter_cons]
  split
  · rw [List.getLast?_cons]
    cases (rest.filter fun run => run.outcome.isSaved).getLast? <;> rfl
  · rw [Option.or_none]

/-- **The file is what the latest run with a save left there**, or it was left alone. -/
theorem leaves_of_happens (hhappens : Happens settings before (runs.map .run) after) :
    Leaves settings.statePath runs before after := by
  induction runs generalizing before with
  | nil =>
      obtain _ | _ := hhappens
      exact Store.Spares.refl _ _ _
  | cons run rest ih =>
      obtain _ | ⟨hruns, hrest⟩ := hhappens
      have hlater := ih hrest
      unfold Leaves at hlater ⊢
      rw [lastSaved_cons]
      cases hlast : lastSaved rest with
      | some last =>
          -- what the first run did is overwritten
          rw [hlast] at hlater
          exact hlater
      | none =>
          rw [hlast] at hlater
          rcases hruns.leaves with ⟨hsaved, memory, hread, hleft⟩ | ⟨hsaved, hspares⟩
          · simp only [hsaved, if_true, Option.none_or]
            exact ⟨memory, hlater.read Store.apart_of_mem_range hread, hleft⟩
          · simp only [hsaved, Bool.false_eq_true, if_false, Option.none_or]
            exact hspares.trans hlater

/-- Where a run starts from a memory that was saved, so does every later one. -/
theorem isReadable_of_happens (hhappens : Happens settings before (runs.map .run) after)
    {memory : Memory} (hread : before.read settings.statePath = .ok (Store.encode memory)) :
    ∀ run ∈ runs, ∀ reason, .memoryUnreadable reason ∉ run.outcome.report.concerns := by
  induction runs generalizing before memory with
  | nil => exact fun run hmem => absurd hmem List.not_mem_nil
  | cons first rest ih =>
      obtain _ | ⟨hruns, hrest⟩ := hhappens
      rw [List.forall_mem_cons]
      refine ⟨hruns.isReadable hread, ?_⟩
      rcases hruns.leaves with ⟨-, next, hnext, -⟩ | ⟨-, hspares⟩
      · exact ih hrest hnext
      · exact ih hrest (hspares.read Store.apart_of_mem_range hread)

theorem happens_append {early late : List Event}
    (hhappens : Happens settings before (early ++ late) after) :
    ∃ between, Happens settings before early between ∧ Happens settings between late after := by
  induction early generalizing before with
  | nil => exact ⟨before, .nil before, hhappens⟩
  | cons event rest ih =>
      cases hhappens with
      | run hruns hrest =>
          obtain ⟨between, hearly, hlate⟩ := ih hrest
          exact ⟨between, .run hruns hearly, hlate⟩
      | reset hends hrest =>
          obtain ⟨between, hearly, hlate⟩ := ih hrest
          exact ⟨between, .reset hends hearly, hlate⟩

/-- **The file persists and heals itself.**  With a save behind it, it is the document of the memory
that the latest run with a save left; without one, what is read at its path stood there from the
start, and on a steady path the same is read as at the start.  Behind the first save no run finds
the memory unreadable. -/
theorem file_of_runs (hhappens : Happens settings before (runs.map .run) after) :
    (∀ run, lastSaved runs = some run →
      ∃ memory, after.read settings.statePath = .ok (Store.encode memory) ∧
        memory.IsLeftAt run.scene.now) ∧
      (lastSaved runs = none →
        (∀ content, after.read settings.statePath = .ok content →
          ∃ location, after.Names settings.statePath location ∧
            before.fileAt? location = some content) ∧
        (before.Rooted → before.Steady settings.statePath → ∀ content,
          after.read settings.statePath = .ok content ↔
            before.read settings.statePath = .ok content)) ∧
      ∀ early run late, runs = early ++ run :: late → run.outcome.isSaved = true →
        ∀ later ∈ late, ∀ reason, .memoryUnreadable reason ∉ later.outcome.report.concerns := by
  have hleaves := leaves_of_happens hhappens
  unfold Leaves at hleaves
  refine ⟨?_, ?_, ?_⟩
  · intro run hlast
    rwa [hlast] at hleaves
  · intro hlast
    rw [hlast] at hleaves
    exact ⟨fun content => hleaves.stood Store.apart_of_mem_range, fun hrooted hsteady content =>
      hleaves.read_iff Store.apart_of_mem_range hrooted hsteady⟩
  · rintro early run late rfl hsaved
    rw [List.map_append, List.map_cons] at hhappens
    obtain ⟨between, -, hlate⟩ := happens_append hhappens
    obtain _ | ⟨hruns, hrest⟩ := hlate
    rcases hruns.leaves with ⟨-, memory, hread, -⟩ | ⟨hunsaved, -⟩
    · exact isReadable_of_happens hrest hread
    · rw [hsaved] at hunsaved
      exact absurd hunsaved (by simp)

/-- Two runs, of which the first finds a memory that was cut short. -/
def healing : List Run × Disk :=
  performAll besideIt ⟨[(["state.json"], .file [0x7B] false)], []⟩ [sevenAt 100, sevenAt 160]

/-- The second run can read the memory, and leaves one of its own time. -/
theorem file_of_healing :
    Happens besideIt ⟨[(["state.json"], .file [0x7B] false)], []⟩ (healing.1.map .run) healing.2 ∧
      (∃ memory, healing.2.read "state.json" = .ok (Store.encode memory) ∧
        memory.IsLeftAt 160) ∧
      ∃ first second, healing.1 = [first, second] ∧
        ∀ reason, .memoryUnreadable reason ∉ second.outcome.report.concerns := by
  have hhappens := happens_performAll besideIt ⟨[(["state.json"], .file [0x7B] false)], []⟩
    [sevenAt 100, sevenAt 160]
  obtain ⟨hsaved, -, hlater⟩ := file_of_runs hhappens
  obtain ⟨first, second, hruns⟩ : ∃ first second, healing.1 = [first, second] := by
    rw [healing, performAll_cons, performAll_cons, performAll_nil]
    exact ⟨_, _, rfl⟩
  have hfirst : healing.1.head?.map (·.outcome.isSaved) = some true := by decide +kernel
  have hlast : (lastSaved healing.1).map (·.scene.now) = some 160 := by decide +kernel
  obtain ⟨last, hlast, hnow⟩ := Option.map_eq_some_iff.mp hlast
  obtain ⟨memory, hread, hleft⟩ := hsaved last hlast
  rw [hruns] at hfirst
  refine ⟨hhappens, ⟨memory, hread, hnow ▸ hleft⟩, first, second, hruns, ?_⟩
  exact hlater [] first [second] hruns (Option.some.inj hfirst) second (by simp)

/-- That the path is steady is needed: no run saves, but the first makes the directory through which
the path leads to a file that is no document of the probe. -/
theorem file_changes_steppingBack :
    ¬ ∀ (settings : Settings) (before after : Disk) (runs : List Run),
      Happens settings before (runs.map .run) after → before.Rooted →
      (∀ content, after.read settings.statePath = .ok content ↔
          before.read settings.statePath = .ok content) ∨
        ∃ run memory, lastSaved runs = some run ∧
          after.read settings.statePath = .ok (Store.encode memory) ∧
          memory.IsLeftAt run.scene.now := by
  intro hclaim
  have hhappens : Happens steppingBack steppingBackDisk
      ([⟨sevenAt 100, withoutRoom.1⟩].map .run) withoutRoom.2 :=
    .run runs_withoutRoom (.nil _)
  have hrooted : steppingBackDisk.Rooted := by decide +kernel
  have hunsaved : lastSaved [⟨sevenAt 100, withoutRoom.1⟩] = none := by decide +kernel
  have habsent : steppingBackDisk.read steppingBack.statePath = .error .notFound := by
    decide +kernel
  have hthere : (withoutRoom.2.read steppingBack.statePath).isOk = true := by decide +kernel
  rcases hclaim _ _ _ _ hhappens hrooted with hsame | ⟨run, memory, hsaved, -⟩
  · cases hread : withoutRoom.2.read steppingBack.statePath with
    | ok content =>
        rw [(hsame content).mp hread] at habsent
        exact absurd habsent (by simp)
    | error refusal =>
        rw [hread] at hthere
        exact absurd hthere (by simp [Except.isOk, Except.toBool])
  · rw [hunsaved] at hsaved
    exact absurd hsaved (by simp)

end Probe

end ServiceWatch
