import ServiceWatch.Proofs.Memory.Json
import ServiceWatch.Proofs.Probe.Run
import ServiceWatch.Proofs.Stall.History
import ServiceWatch.Proofs.Store.Save

/-!
# Runs through the file and runs in memory

Each run takes what the run before it left from a file and leaves there what the next is to take.
Between two runs there may be a reset, and a save may fail at any of its steps.  The verdicts of
such a history are those of a probe that keeps its memory to itself: it replaces the memory at the
runs that saved and blanks it at the resets that succeeded (`inMemory`).

## Strategy

The memory in the file is not the memory that was saved, since the counters went through their
text.  A judgement depends on the watched counter and on the time of the last progress only, so the
two probes are related by agreeing on these (`Agree`).  A run that saves puts them in agreement
again, one that does not leaves the file as it was, and both keep what makes the path lead to one
place throughout; the theorem on histories is the induction over their events.

Nothing is needed of the counters that are not watched.  Of the path it is needed that it is steady:
a path that steps back from a directory which is not there leads nowhere at first, and to a file
that was there all along once a failed save has made that directory.
-/

namespace ServiceWatch.Probe

open Disk (Allows)

variable {settings : Settings} {before after : Disk} {scene : Scene} {outcome : Outcome}
  {held carried : Memory}

/-! ### Histories -/

/-- A run of the probe: the scene that it met, and what came of it. -/
structure Run where
  scene : Scene
  outcome : Outcome
deriving DecidableEq

/-- Something that happens between the probe and its file. -/
inductive Event where
  | run (run : Run)
  | reset (outcome : Except Store.Fault Bool)

/-- The events may happen one after the other, from one disk to the other. -/
inductive Happens (settings : Settings) : Disk → List Event → Disk → Prop where
  | nil (disk : Disk) : Happens settings disk [] disk
  | run {scene : Scene} {outcome : Outcome} {rest : List Event} {before between after : Disk}
      (hruns : scene.Runs settings Allows before outcome between)
      (hrest : Happens settings between rest after) :
      Happens settings before (.run ⟨scene, outcome⟩ :: rest) after
  | reset {outcome : Except Store.Fault Bool} {rest : List Event} {before between after : Disk}
      (hends : (Store.clear settings.statePath).Ends Allows before outcome between)
      (hrest : Happens settings between rest after) :
      Happens settings before (.reset outcome :: rest) after

/-- The verdicts of the runs. -/
def verdicts : List Event → List Stall.Verdict
  | [] => []
  | .run run :: rest => run.outcome.verdict :: verdicts rest
  | .reset _ :: rest => verdicts rest

/-- The memory of a probe that keeps it to itself, after an event. -/
def Event.carry (threshold : UInt64) (carried : Memory) : Event → Memory
  | .run ⟨scene, outcome⟩ =>
    if outcome.isSaved then (Stall.judge threshold scene.scrape carried scene.now).carried carried
    else carried
  | .reset (.ok _) => .blank
  | .reset (.error _) => carried

/-- The verdicts of a probe that keeps its memory to itself. -/
def inMemory (threshold : UInt64) (carried : Memory) : List Event → List Stall.Verdict
  | [] => []
  | .run run :: rest =>
    (Stall.judge threshold run.scene.scrape carried run.scene.now).verdict ::
      inMemory threshold ((Event.run run).carry threshold carried) rest
  | .reset outcome :: rest =>
    inMemory threshold ((Event.reset outcome).carry threshold carried) rest

/-- The watched counter, where the metrics answer has it, is finite and its text is read as the
same number. -/
def Scene.IsReread (scene : Scene) : Prop :=
  ∀ scrape ∈ scene.scrape, ∀ value ∈ scrape.value? finalitySeries,
    value.isFinite = true ∧ Json.reread value = some value

instance (scene : Scene) : Decidable scene.IsReread :=
  inferInstanceAs (Decidable (∀ scrape ∈ scene.scrape, ∀ value ∈ scrape.value? finalitySeries,
    value.isFinite = true ∧ Json.reread value = some value))

/-- Runs in these scenes, one after the other, on the model of a file system. -/
def performAll (settings : Settings) : Disk → List Scene → List Run × Disk
  | disk, [] => ([], disk)
  | disk, scene :: scenes =>
    let (outcome, between) := scene.perform Disk.handle settings disk
    let (runs, after) := performAll settings between scenes
    (⟨scene, outcome⟩ :: runs, after)

theorem happens_performAll (settings : Settings) (disk : Disk) (scenes : List Scene) :
    Happens settings disk ((performAll settings disk scenes).1.map .run)
      (performAll settings disk scenes).2 := by
  induction scenes generalizing disk with
  | nil => exact .nil disk
  | cons scene scenes ih => exact .run (scene.runs_perform Disk.allows_perform settings disk) (ih _)

theorem performAll_nil (settings : Settings) (disk : Disk) :
    (performAll settings disk []).1 = [] := rfl

theorem performAll_cons (settings : Settings) (disk : Disk) (scene : Scene) (scenes : List Scene) :
    (performAll settings disk (scene :: scenes)).1 =
      ⟨scene, (scene.perform Disk.handle settings disk).1⟩ ::
        (performAll settings (scene.perform Disk.handle settings disk).2 scenes).1 :=
  rfl

theorem map_scene_performAll (settings : Settings) (disk : Disk) (scenes : List Scene) :
    (performAll settings disk scenes).1.map Run.scene = scenes := by
  induction scenes generalizing disk with
  | nil => rfl
  | cons scene scenes ih => exact congrArg (scene :: ·) (ih _)

theorem scene_mem_of_performAll {disk : Disk} {scenes : List Scene} {run : Run}
    (hrun : Event.run run ∈ (performAll settings disk scenes).1.map .run) :
    run.scene ∈ scenes := by
  obtain ⟨other, hmem, hother⟩ := List.mem_map.mp hrun
  rw [← Event.run.inj hother]
  have hscene := List.mem_map_of_mem (f := Run.scene) hmem
  rwa [map_scene_performAll] at hscene

/-! ### What a judgement depends on -/

/-- The memories agree on the watched counter and on the time of the last progress. -/
structure Agree (held carried : Memory) : Prop where
  finality : held.last.finality = carried.last.finality
  lastSeen : held.lastSeen = carried.lastSeen

theorem Agree.refl (memory : Memory) : Agree memory memory := ⟨rfl, rfl⟩

theorem Agree.judge_eq (hagree : Agree held carried) (threshold : UInt64) (scrape : Option Scrape)
    (now : UInt64) :
    Stall.judge threshold scrape held now = Stall.judge threshold scrape carried now := by
  unfold Stall.judge
  rw [hagree.finality, hagree.lastSeen]

/-- What a judgement leaves to remember holds the watched counter of its scrape. -/
theorem finality_of_judge_next {threshold : UInt64} {scrape : Option Scrape} {now : UInt64}
    {next : Memory} (hnext : (Stall.judge threshold scrape carried now).next = some next) :
    ∃ taken, scrape = some taken ∧ next.last.finality = some (Stall.watched taken) := by
  cases hread : Stall.reading? (scrape, now) with
  | none =>
      rw [Stall.judge_of_reading_eq_none hread threshold carried] at hnext
      exact absurd hnext (by simp)
  | some taken =>
      rw [Stall.judge_of_reading_eq_some hread threshold carried] at hnext
      obtain rfl := Option.some.inj hnext
      exact ⟨taken, (Option.filter_eq_some_iff.mp hread).1, rfl⟩

theorem reread_zero : Json.reread .zero = some .zero := by
  decide +kernel

/-- A memory to be saved agrees with what will be read. -/
theorem agree_reread (hreread : scene.IsReread) {threshold : UInt64} {next : Memory}
    (hnext : (Stall.judge threshold scene.scrape carried scene.now).next = some next) :
    Agree next.reread next := by
  refine ⟨?_, rfl⟩
  obtain ⟨taken, htaken, hfinality⟩ := finality_of_judge_next hnext
  have hwatched : Json.reread (Stall.watched taken) = some (Stall.watched taken) := by
    unfold Stall.watched
    cases hvalue : taken.value? finalitySeries with
    | none => exact reread_zero
    | some value => exact (hreread taken htaken value hvalue).2
  rw [hfinality, Memory.reread, Counters.reread]
  simp only [hfinality, Option.bind_some, hwatched]

/-! ### One event -/

/-- What a run does to its file: it leaves the document of what is to be remembered there, or it
touches nothing but its draft. -/
theorem Scene.Runs.file (hruns : scene.Runs settings Allows before outcome after) :
    outcome.verdict = (Stall.judge settings.stallThreshold scene.scrape
        (Store.held before settings.statePath) scene.now).verdict ∧
      ((∃ next, outcome.isSaved = true ∧
          (Stall.judge settings.stallThreshold scene.scrape
            (Store.held before settings.statePath) scene.now).next = some next ∧
          after.read settings.statePath = .ok (Store.encode next)) ∨
        outcome.isSaved = false ∧ Store.Spares settings.statePath
          {Store.draftPath settings.statePath scene.process} before after) := by
  obtain ⟨watched, hwatch, rfl⟩ := Scene.runs_iff.mp hruns
  obtain ⟨reply, between, attempt, loaded, judgement, ⟨rfl, rfl⟩, rfl, hjudgement, hattempt, rfl⟩ :=
    ends_watch_iff.mp hwatch
  rw [Store.memory_ofContent_read] at hjudgement
  subst hjudgement
  unfold Attempts at hattempt
  cases hnext : (Stall.judge settings.stallThreshold scene.scrape
      (Store.held between settings.statePath) scene.now).next with
  | none =>
      -- nothing to remember, and no attempt to save it
      rw [hnext] at hattempt
      obtain ⟨rfl, rfl⟩ := hattempt
      exact ⟨rfl, Or.inr ⟨rfl, Store.Spares.refl _ _ _⟩⟩
  | some next =>
      rw [hnext] at hattempt
      obtain ⟨saved, rfl, hsave⟩ := hattempt
      have hsaves := Store.save_ends (Disk.ends_mayFail hsave)
      cases saved with
      | ok done => exact ⟨rfl, Or.inl ⟨next, rfl, rfl, hsaves.read⟩⟩
      | error fault => exact ⟨rfl, Or.inr ⟨rfl, hsaves.1⟩⟩

theorem Scene.Runs.grows (hruns : scene.Runs settings Allows before outcome after) :
    Disk.Grows before after := by
  obtain ⟨watched, hwatch, -⟩ := Scene.runs_iff.mp hruns
  exact Disk.grows_of_ends hwatch

/-- What has to be true of the disk for the path to lead to one place throughout. -/
structure Settled (disk : Disk) (path : String) : Prop where
  rooted : disk.Rooted
  steady : disk.Steady path

theorem Settled.grows {path : String} (hsettled : Settled before path)
    (hgrows : Disk.Grows before after) : Settled after path :=
  ⟨hgrows.rooted hsettled.rooted, hsettled.steady.extends hgrows.keeps⟩

/-- **One run keeps the agreement** and tells the verdict that both memories give. -/
theorem Scene.Runs.agree (hruns : scene.Runs settings Allows before outcome after)
    (hsettled : Settled before settings.statePath) (hreread : scene.IsReread)
    (hagree : Agree (Store.held before settings.statePath) carried) :
    outcome.verdict =
        (Stall.judge settings.stallThreshold scene.scrape carried scene.now).verdict ∧
      Agree (Store.held after settings.statePath)
        ((Event.run ⟨scene, outcome⟩).carry settings.stallThreshold carried) := by
  have hfile := hruns.file
  rw [hagree.judge_eq] at hfile
  obtain ⟨hverdict, ⟨next, hsaved, hnext, hread⟩ | ⟨hsaved, hspares⟩⟩ := hfile
  · -- the file holds what the probe in memory carries on, but for what the text does to it
    have hcarry : (Event.run ⟨scene, outcome⟩).carry settings.stallThreshold carried = next := by
      simp only [Event.carry, hsaved, if_true, Stall.Judgement.carried, hnext, Option.getD_some]
    rw [hcarry, Store.held_of_read hread (Store.decode_encode next)]
    exact ⟨hverdict, agree_reread hreread hnext⟩
  · -- at most a draft was written, which is not what is read
    have hcarry : (Event.run ⟨scene, outcome⟩).carry settings.stallThreshold carried = carried := by
      simp only [Event.carry, hsaved, Bool.false_eq_true, if_false]
    have hheld : Store.held after settings.statePath = Store.held before settings.statePath :=
      Store.held_congr fun _ => hspares.read_iff Store.apart_of_mem_draft hsettled.rooted
        hsettled.steady
    rw [hcarry, hheld]
    exact ⟨hverdict, hagree⟩

/-- One reset keeps the agreement. -/
theorem agree_reset {existed : Except Store.Fault Bool}
    (hends : (Store.clear settings.statePath).Ends Allows before existed after)
    (hagree : Agree (Store.held before settings.statePath) carried) :
    Agree (Store.held after settings.statePath)
      ((Event.reset existed).carry settings.stallThreshold carried) := by
  rcases Store.clear_ends hends with ⟨there, rfl, hnone⟩ | ⟨fault, rfl, rfl⟩
  · rw [Store.held_eq_blank hnone]
    exact Agree.refl .blank
  · exact hagree

/-! ### Whole histories -/

theorem verdicts_of_agree {events : List Event} (hhappens : Happens settings before events after)
    (hsettled : Settled before settings.statePath)
    (hreread : ∀ run, .run run ∈ events → run.scene.IsReread)
    (hagree : Agree (Store.held before settings.statePath) carried) :
    verdicts events = inMemory settings.stallThreshold carried events := by
  -- the memory that is carried is another one behind every event
  induction hhappens generalizing carried with
  | nil disk => rfl
  | run hruns hhappens ih =>
      obtain ⟨hverdict, hagree⟩ := hruns.agree hsettled (hreread _ List.mem_cons_self) hagree
      rw [verdicts, inMemory, hverdict, ih (hsettled.grows hruns.grows)
        (fun run hmem => hreread run (List.mem_cons_of_mem _ hmem)) hagree]
  | reset hends hhappens ih =>
      rw [verdicts, inMemory, ih (hsettled.grows (Disk.grows_of_ends hends))
        (fun run hmem => hreread run (List.mem_cons_of_mem _ hmem)) (agree_reset hends hagree)]

/-- **The probe that remembers through a file judges as one that remembers by itself**, through
failing saves, failing scrapes and resets in any order, on a disk where every node stands in a
directory and for a path that is steady there. -/
theorem verdicts_eq_inMemory {events : List Event}
    (hhappens : Happens settings before events after) (hrooted : before.Rooted)
    (hsteady : before.Steady settings.statePath)
    (hreread : ∀ run, .run run ∈ events → run.scene.IsReread) :
    verdicts events =
      inMemory settings.stallThreshold (Store.held before settings.statePath) events :=
  verdicts_of_agree hhappens ⟨hrooted, hsteady⟩ hreread (Agree.refl _)

/-- A scene in which all is well, with this metrics answer. -/
def wellAt (metrics : String) (now : UInt64) : Scene where
  state := .active
  health := .response 200 ""
  metrics := .response 200 metrics
  process := 1
  now := now

/-- The watched counter has the value seven. -/
def sevenAt : UInt64 → Scene := wellAt "finality_events_total 7\n"

/-- Settings with a file in the working directory. -/
def besideIt : Settings := { Settings.defaults with statePath := "state.json" }

/-- The second run finds what the first one saved. -/
theorem verdicts_sevenTwice :
    Disk.Rooted ⟨[], []⟩ ∧ Disk.Steady ⟨[], []⟩ besideIt.statePath ∧
      verdicts ((performAll besideIt ⟨[], []⟩ [sevenAt 100, sevenAt 160]).1.map .run) =
        inMemory besideIt.stallThreshold (Store.held ⟨[], []⟩ besideIt.statePath)
          ((performAll besideIt ⟨[], []⟩ [sevenAt 100, sevenAt 160]).1.map .run) ∧
      verdicts ((performAll besideIt ⟨[], []⟩ [sevenAt 100, sevenAt 160]).1.map .run) =
        [.idle 0, .idle 60] := by
  have hrooted : Disk.Rooted ⟨[], []⟩ := by decide
  have hsteady : Disk.Steady ⟨[], []⟩ besideIt.statePath := Or.inr (by decide)
  refine ⟨hrooted, hsteady, ?_, by decide +kernel⟩
  have hall : ∀ scene ∈ [sevenAt 100, sevenAt 160], scene.IsReread := by decide +kernel
  exact verdicts_eq_inMemory (happens_performAll _ _ _) hrooted hsteady fun run hrun =>
    hall run.scene (scene_mem_of_performAll hrun)

/-! ### A path that steps back -/

/-- A disk without room for another file. -/
def handleFull (action : Disk.files.Request) : StateM Disk (Disk.files.Reply action) := fun disk =>
  match action with
  | .create _ => (.error (.other 28 "No space left on device"), disk)
  | action => disk.perform action

theorem allows_handleFull (disk : Disk) (action : Disk.Action) :
    Allows disk action (handleFull action disk).1 (handleFull action disk).2 := by
  cases action with
  | create path => exact (rfl : disk = disk)
  | _ => exact Disk.allows_perform disk _

/-- A path through a directory that is not there, and back, to a file that is. -/
def steppingBack : Settings := { Settings.defaults with statePath := "a/b/../state.json" }

/-- The file holds a memory in which the watched counter was five. -/
def steppingBackDisk : Disk where
  nodes := [(["a"], .directory),
    (["a", "state.json"],
      .file (Text.Utf8.encode
        "\x7b\"last\":\x7b\"finality_events_total\":5.0\x7d\x7d".toList) false)]
  workingDirectory := []

/-- The run that finds no file, and no room to save one. -/
def withoutRoom : Outcome × Disk :=
  (sevenAt 100).perform handleFull steppingBack steppingBackDisk

/-- The next run, which finds a file. -/
def withRoom : Outcome × Disk :=
  (sevenAt 160).perform Disk.handle steppingBack withoutRoom.2

theorem runs_withoutRoom :
    (sevenAt 100).Runs steppingBack Allows steppingBackDisk withoutRoom.1 withoutRoom.2 :=
  Scene.runs_perform allows_handleFull _ _ _

theorem runs_withRoom :
    (sevenAt 160).Runs steppingBack Allows withoutRoom.2 withRoom.1 withRoom.2 :=
  Scene.runs_perform Disk.allows_perform _ _ _

/-- Both runs; in between, nothing has happened to the file. -/
def steppingBackEvents : List Event :=
  [.run ⟨sevenAt 100, withoutRoom.1⟩, .run ⟨sevenAt 160, withRoom.1⟩]

/-- That the path is steady is needed: the first run fails to save but makes the directory, and the
second run finds the file. -/
theorem verdicts_ne_inMemory_steppingBack :
    ¬ ∀ (settings : Settings) (before after : Disk) (events : List Event),
      Happens settings before events after → before.Rooted →
      (∀ run, .run run ∈ events → run.scene.IsReread) →
      verdicts events =
        inMemory settings.stallThreshold (Store.held before settings.statePath) events := by
  intro hclaim
  have hhappens : Happens steppingBack steppingBackDisk steppingBackEvents withRoom.2 :=
    .run runs_withoutRoom (.run runs_withRoom (.nil _))
  have hrooted : steppingBackDisk.Rooted := by decide +kernel
  have hall : ∀ scene ∈ [sevenAt 100, sevenAt 160], scene.IsReread := by decide +kernel
  have hreread : ∀ run, .run run ∈ steppingBackEvents → run.scene.IsReread := by
    intro run hmem
    rcases List.mem_pair.mp hmem with hfirst | hsecond
    · obtain rfl := Event.run.inj hfirst
      exact hall _ (by simp)
    · obtain rfl := Event.run.inj hsecond
      exact hall _ (by simp)
  -- the second run finds five in the file; in memory there is nothing, as nothing was saved
  have hfile : verdicts steppingBackEvents = [.idle 0, .progressed] := by decide +kernel
  have hmemory : inMemory steppingBack.stallThreshold
      (Store.held steppingBackDisk steppingBack.statePath) steppingBackEvents =
        [.idle 0, .idle 0] := by
    decide +kernel
  have hverdicts := hclaim _ _ _ _ hhappens hrooted hreread
  rw [hfile, hmemory] at hverdicts
  exact absurd hverdicts (by decide)

end ServiceWatch.Probe
