import ServiceWatch.Probe
import ServiceWatch.Proofs.Store.Load

/-!
# What a run comes to

A `Scene` is what a run of the probe meets apart from the files: what it is answered, and when.
`Scene.Runs` relates the files before a run to its outcome and to the files afterwards, for any
behaviour of the files.  A run asks its questions in a fixed order and then watches the counter
(`Scene.runs_iff`); watching is one request for what the last run remembered and, where there was
something to judge, one attempt to save (`ends_watch_iff`).

Surroundings that are not given as a scene make one of their own, by what they answer to the
questions: a run in any surroundings is the run in that scene (`ends_run_iff`).  What it requests of
them are its three questions and then actions on files (`ends_run_logged_iff`).
-/

namespace ServiceWatch.Probe

open Plan (Behaviour Logged Noted Through)

/-- What a run is answered, and when and as which process it runs. -/
@[ext]
structure Scene where
  state : ServiceState
  health : Answer
  metrics : Answer
  process : ℕ
  now : UInt64
deriving DecidableEq

variable {σ : Type} {allows : Behaviour Disk.files σ} {before after : σ}

/-! ### Watching the counter -/

/-- The attempt to save what is to be remembered next; there is none when that is nothing. -/
def Attempts (allows : Behaviour Disk.files σ) (path : String) (process : ℕ) (next : Option Memory)
    (before : σ) (attempt : Option (Except Store.Fault Unit)) (after : σ) : Prop :=
  match next with
  | none => attempt = none ∧ after = before
  | some memory =>
    ∃ saved, attempt = some saved ∧ (Store.save path process memory).Ends allows before saved after

/-- Watching reads the memory, judges the scrape by it and attempts to save what comes next. -/
theorem ends_watch_iff {path : String} {threshold now : UInt64} {process : ℕ}
    {scrape : Option Scrape} {watched : Watch} :
    (watch path threshold process scrape now).Ends allows before watched after ↔
      ∃ reply between attempt loaded judgement,
        allows before (.read path) reply between ∧
          loaded = Store.Loaded.ofOutcome (Store.ofContent path reply) ∧
          judgement = Stall.judge threshold scrape loaded.memory now ∧
          Attempts allows path process judgement.next between attempt after ∧
          watched = .conclude judgement.verdict loaded attempt := by
  unfold watch
  rw [Plan.ends_bind]
  constructor
  · rintro ⟨loaded, between, hload, hrest⟩
    obtain ⟨reply, hreply, rfl⟩ := Store.ends_load_iff.mp hload
    -- whether there is an attempt to save depends on the judgement alone
    generalize hjudgement : Stall.judge threshold scrape
      (Store.Loaded.ofOutcome (Store.ofContent path reply)).memory now = judgement at hrest
    rcases judgement with ⟨verdict, _ | next⟩
    · obtain ⟨rfl, rfl⟩ := hrest
      exact ⟨reply, after, none, _, _, hreply, rfl, hjudgement.symm, ⟨rfl, rfl⟩, rfl⟩
    · obtain ⟨saved, _, hsave, rfl, rfl⟩ := Plan.ends_bind.mp hrest
      exact ⟨reply, between, some saved, _, _, hreply, rfl, hjudgement.symm, ⟨saved, rfl, hsave⟩,
        rfl⟩
  · rintro ⟨reply, between, attempt, loaded, judgement, hreply, hloaded, hjudgement, hattempt, rfl⟩
    refine ⟨loaded, between, Store.ends_load_iff.mpr ⟨reply, hreply, hloaded⟩, ?_⟩
    simp only [← hjudgement]
    rcases judgement with ⟨verdict, _ | next⟩
    · obtain ⟨rfl, rfl⟩ := hattempt
      exact ⟨rfl, rfl⟩
    · obtain ⟨saved, rfl, hsave⟩ := hattempt
      exact Plan.ends_bind.mpr ⟨saved, after, hsave, rfl, rfl⟩

/-! ### The whole run -/

namespace Scene

variable (scene : Scene)

/-- What the metrics endpoint answered, if that was a success. -/
def scrape : Option Scrape := scene.metrics.body?.map Scrape.ofText

/-- The surroundings in a scene.  Their state is that of the files, and the answers of the endpoints
that are still to be given. -/
def Meets (allows : Behaviour Disk.files σ) : Behaviour surroundings (σ × List Answer) :=
  fun before request => match request with
  | .state _ => fun reply after => reply = scene.state ∧ after = before
  | .answer _ _ => fun reply after => before.2 = reply :: after.2 ∧ after.1 = before.1
  | .file action => fun reply after => allows before.1 action reply after.1 ∧ after.2 = before.2

/-- In this scene, a run of the probe may end with the outcome and leave the files `after`. -/
def Runs (settings : Settings) (allows : Behaviour Disk.files σ) (before : σ) (outcome : Outcome)
    (after : σ) : Prop :=
  (run settings scene.process scene.now).Ends (scene.Meets allows)
    (before, [scene.health, scene.metrics]) outcome (after, [])

end Scene

/-! ### Questions -/

/-- What surroundings allow to actions on files. -/
def FilesIn (answers : Behaviour surroundings σ) : Behaviour Disk.files σ :=
  fun before action reply after => answers before (.file action) reply after

/-- The questions of a run are answered as in the scene, one after the other. -/
def Scene.IsAnswered (scene : Scene) (answers : Behaviour surroundings σ) (settings : Settings)
    (before after : σ) : Prop :=
  ∃ afterState afterHealth,
    answers before (.state settings.service) scene.state afterState ∧
      answers afterState (.answer settings.healthUrl settings.token?) scene.health afterHealth ∧
      answers afterHealth (.answer settings.metricsUrl none) scene.metrics after

variable {answers : Behaviour surroundings σ} {settings : Settings} {outcome : Outcome}
  {process : ℕ} {now : UInt64} {scene : Scene}

theorem ends_onFiles_iff {α : Type} {plan : Store.FilePlan α} {ending : α} :
    (onFiles plan).Ends answers before ending after ↔
      plan.Ends (FilesIn answers) before ending after := by
  refine Plan.ends_refine_iff.trans ⟨fun hends => ?_, fun hends => ?_⟩
  · exact hends.mono fun _ _ _ _ hreply => Plan.ends_request.mp hreply
  · exact hends.mono fun _ _ _ _ hreply => Plan.ends_request.mpr hreply

/-- A run asks its questions and then watches the counter. -/
theorem ends_run_iff_watch :
    (run settings process now).Ends answers before outcome after ↔
      ∃ (scene : Scene) (asked : σ) (watched : Watch),
        scene.process = process ∧ scene.now = now ∧
        scene.IsAnswered answers settings before asked ∧
        (watch settings.statePath settings.stallThreshold process scene.scrape now).Ends
          (FilesIn answers) asked watched after ∧
        outcome = conclude settings.service scene.state scene.health scene.metrics scene.scrape
          watched := by
  constructor
  · intro hruns
    obtain ⟨state, afterState, hstate, hruns⟩ := Plan.ends_bind.mp hruns
    obtain ⟨health, afterHealth, hhealth, hruns⟩ := Plan.ends_bind.mp hruns
    obtain ⟨metrics, asked, hmetrics, hruns⟩ := Plan.ends_bind.mp hruns
    obtain ⟨watched, _, hwatch, rfl, rfl⟩ := Plan.ends_bind.mp hruns
    have hanswered : (Scene.mk state health metrics process now).IsAnswered answers settings before
        asked :=
      ⟨afterState, afterHealth, Plan.ends_request.mp hstate, Plan.ends_request.mp hhealth,
        Plan.ends_request.mp hmetrics⟩
    exact ⟨_, asked, watched, rfl, rfl, hanswered, ends_onFiles_iff.mp hwatch, rfl⟩
  · rintro ⟨scene, asked, watched, rfl, rfl,
      ⟨afterState, afterHealth, hstate, hhealth, hmetrics⟩, hwatch, rfl⟩
    refine Plan.ends_bind.mpr ⟨scene.state, afterState, Plan.ends_request.mpr hstate, ?_⟩
    refine Plan.ends_bind.mpr ⟨scene.health, afterHealth, Plan.ends_request.mpr hhealth, ?_⟩
    refine Plan.ends_bind.mpr ⟨scene.metrics, asked, Plan.ends_request.mpr hmetrics, ?_⟩
    exact Plan.ends_bind.mpr ⟨watched, after, ends_onFiles_iff.mpr hwatch, rfl, rfl⟩

namespace Scene

/-- The surroundings in a scene answer as the scene says. -/
theorem isAnswered_meets_iff {other : Scene} {asked : σ × List Answer} :
    other.IsAnswered (scene.Meets allows) settings (before, [scene.health, scene.metrics]) asked ↔
      other.state = scene.state ∧ other.health = scene.health ∧ other.metrics = scene.metrics ∧
        asked = (before, []) := by
  constructor
  · rintro ⟨_, ⟨files, left⟩, ⟨hstate, rfl⟩, ⟨hfirst, rfl⟩, hsecond, hfiles⟩
    -- the endpoints give the two answers in their order
    obtain ⟨hhealth, rfl⟩ := List.cons.inj hfirst
    obtain ⟨hmetrics, hnone⟩ := List.cons.inj hsecond
    exact ⟨hstate, hhealth.symm, hmetrics.symm, Prod.ext hfiles hnone.symm⟩
  · rintro ⟨hstate, hhealth, hmetrics, rfl⟩
    refine ⟨(before, [scene.health, scene.metrics]), (before, [scene.metrics]), ⟨hstate, rfl⟩, ?_⟩
    rw [hhealth, hmetrics]
    exact ⟨⟨rfl, rfl⟩, rfl, rfl⟩

theorem filesIn_meets_iff {α : Type} {plan : Store.FilePlan α} {left : List Answer} {ending : α}
    {later : σ × List Answer} :
    plan.Ends (FilesIn (scene.Meets allows)) (before, left) ending later ↔
      ∃ after, later = (after, left) ∧ plan.Ends allows before ending after := by
  refine Plan.ends_embed_iff (fun files => (files, left)) fun before action reply later => ?_
  constructor
  · rintro ⟨hreply, hleft⟩
    exact ⟨later.1, Prod.ext rfl hleft, hreply⟩
  · rintro ⟨after, rfl, hreply⟩
    exact ⟨hreply, rfl⟩

/-- **A run is the watch over the counter, concluded with the answers of the scene.** -/
theorem runs_iff :
    scene.Runs settings allows before outcome after ↔
      ∃ watched,
        (watch settings.statePath settings.stallThreshold scene.process scene.scrape
          scene.now).Ends allows before watched after ∧
        outcome = conclude settings.service scene.state scene.health scene.metrics scene.scrape
          watched := by
  refine ends_run_iff_watch.trans ⟨?_, ?_⟩
  · rintro ⟨other, asked, watched, hprocess, hnow, hanswered, hwatch, rfl⟩
    obtain ⟨hstate, hhealth, hmetrics, rfl⟩ := isAnswered_meets_iff.mp hanswered
    obtain rfl : other = scene := Scene.ext hstate hhealth hmetrics hprocess hnow
    obtain ⟨_, hafter, hends⟩ := filesIn_meets_iff.mp hwatch
    obtain ⟨rfl, -⟩ := Prod.mk.inj hafter
    exact ⟨watched, hends, rfl⟩
  · rintro ⟨watched, hends, rfl⟩
    exact ⟨scene, (before, []), watched, rfl, rfl,
      isAnswered_meets_iff.mpr ⟨rfl, rfl, rfl, rfl⟩,
      filesIn_meets_iff.mpr ⟨after, rfl, hends⟩, rfl⟩

/-- A run comes to an end wherever every action on files is replied to. -/
theorem exists_runs
    (htotal : ∀ files action, ∃ reply next, allows files action reply next) (scene : Scene)
    (settings : Settings) (before : σ) :
    ∃ outcome after, scene.Runs settings allows before outcome after := by
  obtain ⟨watched, after, hends⟩ := Plan.exists_ends htotal
    (watch settings.statePath settings.stallThreshold scene.process scene.scrape scene.now) before
  exact ⟨_, after, runs_iff.mpr ⟨watched, hends, rfl⟩⟩

/-- The run of the probe where the files reply as `handle` says. -/
def perform (scene : Scene)
    (handle : (action : Disk.files.Request) → StateM σ (Disk.files.Reply action))
    (settings : Settings) (files : σ) : Outcome × σ :=
  let (watched, after) := (watch settings.statePath settings.stallThreshold scene.process
    scene.scrape scene.now).run handle files
  (conclude settings.service scene.state scene.health scene.metrics scene.scrape watched, after)

theorem runs_perform {handle : (action : Disk.files.Request) → StateM σ (Disk.files.Reply action)}
    (hallows : ∀ files action, allows files action (handle action files).1 (handle action files).2)
    (scene : Scene) (settings : Settings) (files : σ) :
    scene.Runs settings allows files (scene.perform handle settings files).1
      (scene.perform handle settings files).2 :=
  runs_iff.mpr ⟨_, Plan.ends_run hallows _ files, rfl⟩

end Scene

/-! ### Runs in any surroundings -/

/-- **A run in any surroundings is the run in the scene that they answer.** -/
theorem ends_run_iff :
    (run settings process now).Ends answers before outcome after ↔
      ∃ (scene : Scene) (asked : σ), scene.process = process ∧ scene.now = now ∧
        scene.IsAnswered answers settings before asked ∧
        scene.Runs settings (FilesIn answers) asked outcome after := by
  simp only [ends_run_iff_watch, Scene.runs_iff]
  constructor
  · rintro ⟨scene, asked, watched, rfl, rfl, hanswered, hwatch, rfl⟩
    exact ⟨scene, asked, rfl, rfl, hanswered, watched, hwatch, rfl⟩
  · rintro ⟨scene, asked, rfl, rfl, hanswered, watched, hwatch, rfl⟩
    exact ⟨scene, asked, watched, rfl, rfl, hanswered, hwatch, rfl⟩

/-- The questions of a run: for the state of the service, then the health endpoint with the token,
then the metrics endpoint without one. -/
def questions (settings : Settings) : List Request :=
  [.state settings.service, .answer settings.healthUrl settings.token?,
    .answer settings.metricsUrl none]

theorem Scene.isAnswered_logged_iff {earlier : List Request} {asked : σ × List Request} :
    scene.IsAnswered (Logged answers) settings (before, earlier) asked ↔
      ∃ after, scene.IsAnswered answers settings before after ∧
        asked = (after, earlier ++ questions settings) := by
  have hquestions : earlier ++ questions settings =
      earlier ++ [.state settings.service] ++ [.answer settings.healthUrl settings.token?] ++
        [.answer settings.metricsUrl none] := by
    rw [List.append_assoc, List.append_assoc]
    rfl
  rw [hquestions]
  constructor
  · rintro ⟨⟨afterState, _⟩, ⟨afterHealth, _⟩, ⟨hstate, rfl⟩, ⟨hhealth, rfl⟩, hmetrics, hlog⟩
    exact ⟨asked.1, ⟨afterState, afterHealth, hstate, hhealth, hmetrics⟩, Prod.ext rfl hlog⟩
  · rintro ⟨after, ⟨afterState, afterHealth, hstate, hhealth, hmetrics⟩, rfl⟩
    exact ⟨(afterState, _), (afterHealth, _), ⟨hstate, rfl⟩, ⟨hhealth, rfl⟩, hmetrics, rfl⟩

theorem Scene.runs_logged_iff {earlier later : List Request} :
    scene.Runs settings (FilesIn (Logged answers)) (before, earlier) outcome (after, later) ↔
      ∃ actions : List Disk.Action,
        scene.Runs settings (Logged (FilesIn answers)) (before, []) outcome (after, actions) ∧
        later = earlier ++ actions.map .file := by
  -- the surroundings note of each action the request for it
  have hnoted : FilesIn (Logged answers) =
      Noted (fun action => [.file action]) (FilesIn answers) := rfl
  rw [hnoted, Scene.runs_iff]
  constructor
  · rintro ⟨watched, hwatch, rfl⟩
    obtain ⟨actions, hends, rfl⟩ := Plan.ends_noted_iff.mp hwatch
    exact ⟨actions, Scene.runs_iff.mpr ⟨watched, hends, rfl⟩,
      congrArg (earlier ++ ·) List.map_eq_flatMap.symm⟩
  · rintro ⟨actions, hruns, rfl⟩
    obtain ⟨watched, hends, rfl⟩ := Scene.runs_iff.mp hruns
    rw [List.map_eq_flatMap]
    exact ⟨watched, Plan.ends_noted_iff.mpr ⟨actions, hends, rfl⟩, rfl⟩

/-- **What a run requests are its questions, and then actions on files.** -/
theorem ends_run_logged_iff {earlier later : List Request} :
    (run settings process now).Ends (Logged answers) (before, earlier) outcome (after, later) ↔
      ∃ (scene : Scene) (asked : σ) (actions : List Disk.Action),
        scene.process = process ∧ scene.now = now ∧
        scene.IsAnswered answers settings before asked ∧
        scene.Runs settings (Logged (FilesIn answers)) (asked, []) outcome (after, actions) ∧
        later = earlier ++ (questions settings ++ actions.map .file) := by
  rw [ends_run_iff]
  constructor
  · rintro ⟨scene, _, hprocess, hnow, hasked, hends⟩
    obtain ⟨asked, hanswered, rfl⟩ := Scene.isAnswered_logged_iff.mp hasked
    obtain ⟨actions, hruns, rfl⟩ := Scene.runs_logged_iff.mp hends
    exact ⟨scene, asked, actions, hprocess, hnow, hanswered, hruns, List.append_assoc ..⟩
  · rintro ⟨scene, asked, actions, hprocess, hnow, hanswered, hruns, rfl⟩
    rw [← List.append_assoc]
    exact ⟨scene, _, hprocess, hnow, Scene.isAnswered_logged_iff.mpr ⟨asked, hanswered, rfl⟩,
      Scene.runs_logged_iff.mpr ⟨actions, hruns, rfl⟩⟩

end ServiceWatch.Probe
