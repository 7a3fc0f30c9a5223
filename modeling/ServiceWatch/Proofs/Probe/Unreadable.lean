import ServiceWatch.Proofs.Probe.Healthy
import ServiceWatch.Proofs.Probe.Independence
import ServiceWatch.Proofs.Store.Twins

/-!
# A memory that cannot be decoded

A file that holds no memory is like no file, but for one concern.  Two disks are the same, except
that one has a file at the path which cannot be decoded and the other has none.  The runs on both
come to the same verdict, which is that of a first run, raise the same outages, and save both or
neither; the concerns differ in that one, which stands behind those about series and before one
about the save.  After a save the disks are the same (`Scene.runs_recover`).

## Strategy

Both runs load the blank memory, so they judge alike and attempt to save the same.  That the attempt
comes to the same on both disks is `Store.Twins.save`.  The refusals of a file system may be any, so
for one that may refuse the runs are matched one by one; where replies are determined, this is all
there is to say.
-/

namespace ServiceWatch

/-- The disks are the same, but at one location the second has a file with this content and the
first has nothing. -/
structure Disk.AddsFile (location : Location) (content : List UInt8) (first second : Disk) :
    Prop where
  workingDirectory : second.workingDirectory = first.workingDirectory
  elsewhere : ∀ place, place ≠ location → second.node? place = first.node? place
  absent : first.node? location = none
  present : second.fileAt? location = some content

/-- The disks are the same. -/
structure Disk.IsSame (first second : Disk) : Prop where
  workingDirectory : second.workingDirectory = first.workingDirectory
  node : ∀ place, second.node? place = first.node? place

namespace Probe

open Disk (Allows Performs)
open Store (Twins)

variable {settings : Settings} {scene : Scene} {first second after last : Disk}
  {clean outcome : Outcome} {location : Location} {content : List UInt8} {fault : Store.Fault}
  {left right : Option Node}

/-! ### Outcomes -/

/-- One outcome is that of a first run, and the other differs from it in one concern. -/
structure Outcome.Recovers (clean broken : Outcome) (reason : String) : Prop where
  verdict : broken.verdict = clean.verdict
  isFirst : clean.verdict = .unknown ∨ clean.verdict = .idle 0
  outages : broken.report.outages = clean.report.outages
  isSaved : broken.isSaved = clean.isSaved
  concerns : ∃ missing unsaved,
    clean.report.concerns = missing ++ unsaved ∧
      broken.report.concerns = missing ++ .memoryUnreadable reason :: unsaved ∧
      (∀ concern ∈ missing, ∃ series, concern = .missingSeries series) ∧
      ∀ concern ∈ unsaved, ∃ reason, concern = .memoryNotSaved reason

theorem judge_blank (threshold : UInt64) (scrape : Option Scrape) (now : UInt64) :
    (Stall.judge threshold scrape .blank now).verdict = .unknown ∨
      (Stall.judge threshold scrape .blank now).verdict = .idle 0 := by
  cases hread : Stall.reading? (scrape, now) with
  | none => exact Or.inl (by rw [Stall.judge_of_reading_eq_none hread])
  | some taken =>
      rw [Stall.judge_of_reading_eq_some hread, Stall.tick_of_no_baseline rfl]
      exact Or.inr rfl

/-- What a run concludes that has loaded the blank memory. -/
def Scene.concludeBlank (scene : Scene) (settings : Settings) (concern : Option Concern)
    (attempt : Option (Except Store.Fault Unit)) : Outcome :=
  conclude settings.service scene.state scene.health scene.metrics scene.scrape
    (.conclude (Stall.judge settings.stallThreshold scene.scrape .blank scene.now).verdict
      ⟨.blank, concern⟩ attempt)

theorem verdict_concludeBlank (concern : Option Concern)
    (attempt : Option (Except Store.Fault Unit)) :
    (scene.concludeBlank settings concern attempt).verdict =
      (Stall.judge settings.stallThreshold scene.scrape .blank scene.now).verdict := by
  rcases attempt with _ | fault | done <;> rfl

theorem isSaved_concludeBlank (concern : Option Concern)
    (attempt : Option (Except Store.Fault Unit)) :
    (scene.concludeBlank settings concern attempt).isSaved = true ↔ attempt = some (.ok ()) := by
  rcases attempt with _ | fault | done <;>
    simp [Scene.concludeBlank, conclude, Watch.conclude]

/-- The concern about an attempt to save that failed. -/
def unsaved : Option (Except Store.Fault Unit) → List Concern
  | some (.error fault) => [.memoryNotSaved fault.message]
  | _ => []

theorem concerns_concludeBlank (concern : Option Concern)
    (attempt : Option (Except Store.Fault Unit)) :
    (scene.concludeBlank settings concern attempt).report.concerns =
      (missing scene.scrape).map .missingSeries ++ concern.toList ++ unsaved attempt := by
  rw [Scene.concludeBlank, concerns_conclude]
  rcases judge_blank settings.stallThreshold scene.scrape scene.now with hverdict | hverdict <;>
    rcases attempt with _ | fault | done <;> simp [hverdict, unsaved]

theorem recovers_concludeBlank (attempt : Option (Except Store.Fault Unit)) (reason : String) :
    (scene.concludeBlank settings none attempt).Recovers
      (scene.concludeBlank settings (some (.memoryUnreadable reason)) attempt) reason where
  verdict := by rw [verdict_concludeBlank, verdict_concludeBlank]
  isFirst := by
    rw [verdict_concludeBlank]
    exact judge_blank _ _ _
  outages := by
    rcases attempt with _ | fault | done <;> rfl
  isSaved := by rw [Bool.eq_iff_iff, isSaved_concludeBlank, isSaved_concludeBlank]
  concerns := by
    refine ⟨(missing scene.scrape).map .missingSeries, unsaved attempt, ?_, ?_, ?_, ?_⟩
    · rw [concerns_concludeBlank]
      simp
    · rw [concerns_concludeBlank]
      simp
    · intro concern hconcern
      obtain ⟨series, -, rfl⟩ := List.mem_map.mp hconcern
      exact ⟨series, rfl⟩
    · rcases attempt with _ | fault | done <;> simp [unsaved]

/-! ### Two runs -/

variable {allows : Plan.Behaviour Disk.files Disk}

/-- What runs on a file system runs on one that allows more. -/
theorem Scene.Runs.mono {σ : Type} {fewer more : Plan.Behaviour Disk.files σ} {before after : σ}
    (hruns : scene.Runs settings fewer before outcome after)
    (hmore : ∀ files action reply next, fewer files action reply next →
      more files action reply next) : scene.Runs settings more before outcome after := by
  obtain ⟨watched, hwatch, rfl⟩ := Scene.runs_iff.mp hruns
  exact Scene.runs_iff.mpr ⟨watched, hwatch.mono hmore, rfl⟩

/-- A file system whose replies are true, and the same on two disks that differ in the file that is
to be replaced. -/
structure IsImpartial (allows : Plan.Behaviour Disk.files Disk) : Prop where
  truthful : ∀ disk action reply next, allows disk action reply next →
    Allows disk action reply next
  reads : ∀ disk path, allows disk (.read path) (disk.read path) disk
  mirrored : ∀ path process bytes,
    Store.IsMirrored allows path (Store.draftPath path process) bytes

theorem isImpartial_allows : IsImpartial Allows where
  truthful := fun _ _ _ _ => id
  reads := fun _ _ => ⟨rfl, rfl⟩
  mirrored := Store.isMirrored_allows

theorem isImpartial_performs : IsImpartial Performs where
  truthful := fun _ _ _ _ => Disk.allows_of_performs
  reads := fun _ _ => rfl
  mirrored := Store.isMirrored_performs

/-- A run that loads the blank memory is matched by one on the other disk, if that loads it too. -/
theorem Scene.Runs.mirrored {concern other : Option Concern} (himpartial : IsImpartial allows)
    (htwins : Twins settings.statePath location left right first second)
    (hfirst : Store.Loaded.ofOutcome (Store.ofContent settings.statePath
      (first.read settings.statePath)) = ⟨.blank, concern⟩)
    (hsecond : Store.Loaded.ofOutcome (Store.ofContent settings.statePath
      (second.read settings.statePath)) = ⟨.blank, other⟩)
    (hruns : scene.Runs settings allows first outcome after) :
    ∃ attempt last, outcome = scene.concludeBlank settings concern attempt ∧
      scene.Runs settings allows second (scene.concludeBlank settings other attempt) last ∧
      Twins settings.statePath location left right after last := by
  obtain ⟨watched, hwatch, rfl⟩ := Scene.runs_iff.mp hruns
  obtain ⟨reply, between, attempt, loaded, judgement, hreply, hloaded, hjudgement, hattempt, rfl⟩ :=
    ends_watch_iff.mp hwatch
  obtain ⟨rfl, rfl⟩ := himpartial.truthful _ _ _ _ hreply
  rw [hfirst] at hloaded
  subst hloaded
  obtain ⟨last, hlast, hafter⟩ : ∃ last,
      Attempts allows settings.statePath scene.process judgement.next second attempt last ∧
        Twins settings.statePath location left right after last := by
    unfold Attempts at hattempt ⊢
    cases hnext : judgement.next with
    | none =>
        rw [hnext] at hattempt
        obtain ⟨rfl, rfl⟩ := hattempt
        exact ⟨second, ⟨rfl, rfl⟩, htwins⟩
    | some memory =>
        rw [hnext] at hattempt
        obtain ⟨saved, rfl, hsave⟩ := hattempt
        obtain ⟨last, hlast, hafter⟩ :=
          htwins.save (himpartial.mirrored _ _ _) himpartial.truthful hsave
        exact ⟨last, ⟨saved, rfl, hlast⟩, hafter⟩
  subst hjudgement
  exact ⟨attempt, last, rfl, Scene.runs_iff.mpr ⟨_, ends_watch_iff.mpr
    ⟨_, second, attempt, _, _, himpartial.reads second settings.statePath, hsecond.symm, rfl,
      hlast, rfl⟩, rfl⟩, hafter⟩

/-- A run that saved where there was no file leaves nothing of the difference. -/
theorem isSame_of_isSaved (himpartial : IsImpartial allows)
    (hruns : scene.Runs settings allows first clean after)
    (htwins : Twins settings.statePath location none right after last)
    (hsaved : clean.isSaved = true) : after.IsSame last := by
  obtain ⟨-, ⟨memory, -, -, hread⟩ | ⟨hunsaved, -⟩⟩ := (hruns.mono himpartial.truthful).file
  · exact ⟨htwins.differ.workingDirectory, htwins.same_of_read hread⟩
  · rw [hsaved] at hunsaved
    exact absurd hunsaved (by simp)

/-! ### A file that cannot be decoded -/

theorem twins_of_addsFile {path : String} (hadds : Disk.AddsFile location content first second)
    (hnames : second.Names path location) :
    Twins path location none (second.node? location) first second := by
  have hdiffer : Disk.Differ location none (second.node? location) first second := by
    refine ⟨hadds.workingDirectory, hadds.elsewhere, Or.inr ⟨hadds.absent, rfl⟩, ?_, ?_⟩
    · rw [hadds.absent]
      simp
    · obtain ⟨isProgram, hnode⟩ := Disk.fileAt?_eq_some_iff.mp hadds.present
      rw [hnode]
      simp
  exact ⟨hdiffer, hnames.extends hdiffer.symm.extends⟩

/-- What is loaded where there is no file. -/
theorem loaded_of_absent {path : String} (hnames : first.Names path location)
    (habsent : first.node? location = none) :
    Store.Loaded.ofOutcome (Store.ofContent path (first.read path)) = ⟨.blank, none⟩ := by
  rw [Disk.read_eq_notFound_iff.mpr (Disk.find_eq_notFound hnames habsent)]
  rfl

/-- What is loaded where there is a file that cannot be decoded. -/
theorem loaded_of_undecodable {path : String} (hnames : second.Names path location)
    (hpresent : second.fileAt? location = some content)
    (hbroken : Store.decode content = .error fault) :
    Store.Loaded.ofOutcome (Store.ofContent path (second.read path)) =
      ⟨.blank, some (.memoryUnreadable fault.message)⟩ := by
  rw [Disk.read_eq_ok_iff_fileAt?.mpr ⟨location, hnames, hpresent⟩, Store.ofContent, hbroken]
  rfl

/-- **A run recovers from a file that cannot be decoded.**  On a file system that may refuse
anything, every run without the file is matched by one with it, and the other way round; where
replies are determined, any two runs match. -/
theorem Scene.runs_recover (hadds : Disk.AddsFile location content first second)
    (hnames : second.Names settings.statePath location)
    (hbroken : Store.decode content = .error fault) :
    (∀ clean after, scene.Runs settings Allows first clean after →
      ∃ broken last, scene.Runs settings Allows second broken last ∧
        clean.Recovers broken fault.message ∧ (clean.isSaved = true → after.IsSame last)) ∧
      (∀ broken last, scene.Runs settings Allows second broken last →
        ∃ clean after, scene.Runs settings Allows first clean after ∧
          clean.Recovers broken fault.message ∧ (clean.isSaved = true → after.IsSame last)) ∧
      ∀ clean after broken last, scene.Runs settings Performs first clean after →
        scene.Runs settings Performs second broken last →
        clean.Recovers broken fault.message ∧ (clean.isSaved = true → after.IsSame last) := by
  have htwins := twins_of_addsFile hadds hnames
  have hclean := loaded_of_absent htwins.names hadds.absent
  have hloaded := loaded_of_undecodable hnames hadds.present hbroken
  have hmatched {allows : Plan.Behaviour Disk.files Disk} (himpartial : IsImpartial allows)
      {clean : Outcome} {after : Disk} (hruns : scene.Runs settings allows first clean after) :
      ∃ broken last, scene.Runs settings allows second broken last ∧
        clean.Recovers broken fault.message ∧ (clean.isSaved = true → after.IsSame last) := by
    obtain ⟨attempt, last, rfl, hother, hafter⟩ := hruns.mirrored himpartial htwins hclean hloaded
    exact ⟨_, last, hother, recovers_concludeBlank attempt _,
      isSame_of_isSaved himpartial hruns hafter⟩
  refine ⟨fun clean after => hmatched isImpartial_allows, ?_, ?_⟩
  · intro broken last hruns
    obtain ⟨attempt, after, rfl, hother, hafter⟩ :=
      hruns.mirrored isImpartial_allows htwins.symm hloaded hclean
    exact ⟨_, after, hother, recovers_concludeBlank attempt _,
      isSame_of_isSaved isImpartial_allows hother hafter.symm⟩
  · intro clean after broken last hruns hother
    obtain ⟨matched, ending, hmatch, hrecovers, hsame⟩ := hmatched isImpartial_performs hruns
    obtain ⟨rfl, rfl⟩ := hmatch.unique Disk.isDetermined_performs hother
    exact ⟨hrecovers, hsame⟩

/-- A disk on which the file was cut short. -/
def cutShort : Disk := ⟨[(["state.json"], .file [0x7B] false)], []⟩

/-- A run on that disk. -/
def recoveringRun : Outcome × Disk := (sevenAt 100).perform Disk.handle besideIt cutShort

/-- It comes to what the first run of all comes to, with a concern about the file. -/
theorem recoveringRun_recovers :
    ∃ fault, Store.decode [0x7B] = .error fault ∧
      Disk.AddsFile ["state.json"] [0x7B] ⟨[], []⟩ cutShort ∧
      cutShort.Names besideIt.statePath ["state.json"] ∧
      ((sevenAt 100).perform Disk.handle besideIt ⟨[], []⟩).1.Recovers recoveringRun.1
        fault.message ∧
      recoveringRun.1.isSaved = true := by
  obtain ⟨fault, hbroken⟩ : ∃ fault, Store.decode [0x7B] = .error fault := by
    cases hdecode : Store.decode [0x7B] with
    | error fault => exact ⟨fault, rfl⟩
    | ok memory =>
        have herror : (Store.decode [0x7B]).isOk = false := by decide +kernel
        rw [hdecode] at herror
        exact absurd herror (by simp [Except.isOk, Except.toBool])
  have hadds : Disk.AddsFile ["state.json"] [0x7B] ⟨[], []⟩ cutShort := by
    refine ⟨rfl, fun place hplace => ?_, rfl, rfl⟩
    have hother : (place == ["state.json"]) = false := by simpa using hplace
    simp [Disk.node?, cutShort, List.lookup_cons, hother]
  have hnames : cutShort.Names besideIt.statePath ["state.json"] :=
    ⟨[], "state.json", by decide +kernel, by decide +kernel, rfl⟩
  obtain ⟨-, -, hall⟩ := Scene.runs_recover hadds hnames hbroken
  have hperforms (disk : Disk) : (sevenAt 100).Runs besideIt Performs disk
      ((sevenAt 100).perform Disk.handle besideIt disk).1
      ((sevenAt 100).perform Disk.handle besideIt disk).2 :=
    Scene.runs_perform (fun _ _ => rfl) _ _ _
  obtain ⟨hrecovers, -⟩ := hall _ _ _ _ (hperforms ⟨[], []⟩) (hperforms cutShort)
  exact ⟨fault, hbroken, hadds, hnames, hrecovers, by decide +kernel⟩

end Probe

end ServiceWatch
