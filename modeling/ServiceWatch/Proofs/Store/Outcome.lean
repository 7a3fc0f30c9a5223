import ServiceWatch.Proofs.Store.Register

/-!
# What a save comes to

A save that succeeds leaves the document at the path and nothing at the draft.  A save that fails
leaves every file as it was but its draft, which is gone.  In both cases the only new nodes are
directories around the file (`outcome_of_save`).

Two things that one might expect of a save that fails do not hold, both because of the directories
that it makes first.  What is read at the path may change, since a path that steps back from a
missing directory leads nowhere until that directory is made.  And a draft that an earlier process
with the same number left behind stays there when a directory is refused, since the save has not
come to its draft then (`changed_by_failure`).
-/

namespace ServiceWatch.Store

open Disk (Unlinks)

variable {path : String} {process : ℕ} {before middle after : Disk} {location : Location}
  {fault : Fault} {memory : Memory}

/-- What is at the location is what was there, or it is a new directory around the file. -/
def Stays (path : String) (before after : Disk) (location : Location) : Prop :=
  after.node? location = before.node? location ∨
    before.node? location = none ∧ after.node? location = some .directory ∧
      Encloses after path location

theorem Spares.stays (hspares : Spares path ∅ before after) (location : Location) :
    Stays path before after location := by
  rcases hspares.node location with ⟨draft, hdraft, -⟩ | hstays
  · exact absurd hdraft (Set.notMem_empty draft)
  · exact hstays

theorem stays_of_withdraws {draft : String} (hspares : Spares path ∅ before middle)
    (hwithdraws : Withdraws draft middle after) (location : Location) :
    Stays path before after location ∨
      after.Names draft location ∧ after.node? location = none := by
  refine (hwithdraws.node location).imp_left fun hsame => ?_
  refine (hspares.stays location).imp hsame.trans ?_
  rintro ⟨hnone, hmade, hencloses⟩
  exact ⟨hnone, hsame.trans hmade, hencloses.extends hwithdraws.drafts.grows.keeps⟩

/-- What a save that fails leaves, location by location. -/
theorem stays_of_failure
    (hends : (save path process memory).Ends Unlinks before (.error fault) after) :
    (∀ location, Stays path before after location ∨
      after.Names (draftPath path process) location ∧ after.node? location = none) ∧
      ((∀ content, after.read (draftPath path process) ≠ .ok content) ∨
        Spares path ∅ before after ∧
          ∃ directory refusal, Path.parent? path = some directory ∧
            fault = .write directory refusal) := by
  obtain ⟨middle, hspares, hwithdraws | ⟨rfl, hfault⟩⟩ := withdraws_of_save hends
  · exact ⟨stays_of_withdraws hspares hwithdraws, Or.inl hwithdraws.absent⟩
  · exact ⟨fun location => Or.inl (hspares.stays location), Or.inr ⟨hspares, hfault⟩⟩

/-- **A save leaves the whole document, or all as it was but for new directories and its draft.**
When it fails, no file is at the draft, unless a directory around the file could not be made and the
save came no further; what was read at the path still is, and a file that is read there stood at its
location before.  For a path that was steady nothing else is read than before. -/
theorem outcome_of_save {outcome : Except Fault Unit}
    (hends : (save path process memory).Ends Unlinks before outcome after) :
    (outcome = .ok () →
      after.read path = .ok (encode memory) ∧
        after.find (draftPath path process) = .error .notFound ∧
        ∀ location, Stays path before after location ∨ after.Names path location ∨
          after.Names (draftPath path process) location) ∧
      ∀ fault, outcome = .error fault →
        (∀ location, Stays path before after location ∨
          after.Names (draftPath path process) location ∧ after.node? location = none) ∧
          ((∀ content, after.read (draftPath path process) ≠ .ok content) ∨
            Spares path ∅ before after ∧
              ∃ directory refusal, Path.parent? path = some directory ∧
                fault = .write directory refusal) ∧
          (∀ content, before.read path = .ok content → after.read path = .ok content) ∧
          (∀ content, after.read path = .ok content →
            ∃ location, after.Names path location ∧ before.fileAt? location = some content) ∧
          (before.Rooted → before.Steady path →
            ∀ content, after.read path = .ok content ↔ before.read path = .ok content) := by
  have hsaved := save_ends (Disk.ends_mayFail (Disk.allows_of_unlinks hends))
  constructor
  · rintro rfl
    refine ⟨hsaved.read, hsaved.find_draft, fun location => ?_⟩
    rcases hsaved.spares.node location with ⟨target, rfl | rfl, hnames⟩ | hstays
    · exact Or.inr (Or.inl hnames)
    · exact Or.inr (Or.inr hnames)
    · exact Or.inl hstays
  · rintro fault rfl
    obtain ⟨hstays, hdraft⟩ := stays_of_failure hends
    obtain ⟨hspares, -⟩ := hsaved
    exact ⟨hstays, hdraft, fun content => hspares.read apart_of_mem_draft,
      fun content => hspares.stood apart_of_mem_draft,
      fun hrooted hsteady content => hspares.read_iff apart_of_mem_draft hrooted hsteady⟩

/-- A directory with a file and the draft that a process left when it was stopped. -/
def interrupted : Disk where
  nodes := [(["d"], .directory), (["d", "state.json"], .file [0x7B, 0x7D] false),
    (["d", ".state.json.1.tmp"], .file [0x7B] false)]
  workingDirectory := []

/-- A save on that disk when it is full. -/
def fullSave : Except Fault Unit × Disk :=
  (save "d/state.json" 1 endless).run fullDisk interrupted

/-- The save fails; the draft is gone, and the file is what it was. -/
theorem fullSave_restores :
    (save "d/state.json" 1 endless).Ends Unlinks interrupted fullSave.1 fullSave.2 ∧
      fullSave.1 = .error (.write "d/.state.json.1.tmp" (.other 28 "No space left on device")) ∧
      interrupted.read "d/.state.json.1.tmp" = .ok [0x7B] ∧
      (∀ content, fullSave.2.read "d/.state.json.1.tmp" ≠ .ok content) ∧
      fullSave.2.read "d/state.json" = .ok [0x7B, 0x7D] := by
  have hends : (save "d/state.json" 1 endless).Ends Unlinks interrupted fullSave.1 fullSave.2 :=
    Plan.ends_run unlinks_fullDisk _ _
  have hfails : fullSave.1 =
      .error (.write "d/.state.json.1.tmp" (.other 28 "No space left on device")) := by
    decide +kernel
  have hdraft : draftPath "d/state.json" 1 = "d/.state.json.1.tmp" := by decide +kernel
  obtain ⟨-, hfailure⟩ := outcome_of_save hends
  obtain ⟨-, hgone, hread, -⟩ := hfailure _ hfails
  refine ⟨hends, hfails, by decide +kernel, ?_, hread _ (by decide +kernel)⟩
  rw [hdraft] at hgone
  refine hgone.resolve_right ?_
  -- what was refused is the draft, not the directory
  rintro ⟨-, directory, refusal, hparent, hfault⟩
  have hdirectory : Path.parent? "d/state.json" = some "d" := by decide +kernel
  rw [hdirectory] at hparent
  obtain rfl := Option.some.inj hparent
  exact absurd (Fault.write.inj hfault).1 (by decide)

/-- A disk on which no directory can be made. -/
def withoutDirectories (action : Disk.Action) : StateM Disk action.Reply :=
  match action with
  | .makeDirectory _ => fun disk => (.error (.other 30 "Read-only file system"), disk)
  | action => Disk.handle action

theorem unlinks_withoutDirectories (disk : Disk) (action : Disk.Action) :
    Unlinks disk action (withoutDirectories action disk).1 (withoutDirectories action disk).2 := by
  cases action with
  | makeDirectory target => exact rfl
  | _ => exact Disk.unlinks_handle disk _

/-- A save that fails may change what is read at the path, which is nothing before and a file
afterwards, and it may leave a draft that was there before. -/
theorem changed_by_failure :
    (¬ ∀ (path : String) (process : ℕ) (memory : Memory) (before after : Disk) (fault : Fault),
      (save path process memory).Ends Unlinks before (.error fault) after → before.Rooted →
      ∀ content, after.read path = .ok content ↔ before.read path = .ok content) ∧
    ¬ ∀ (path : String) (process : ℕ) (memory : Memory) (before after : Disk) (fault : Fault),
      (save path process memory).Ends Unlinks before (.error fault) after → before.Rooted →
      ∀ content, after.read (draftPath path process) ≠ .ok content := by
  constructor
  · intro hclaim
    have hends := Plan.ends_run unlinks_fullDisk (save "d/../state.json" 1 .blank)
      ⟨[(["state.json"], .file [0x7B, 0x7D] false)], []⟩
    have hfails : ((save "d/../state.json" 1 .blank).run fullDisk
        ⟨[(["state.json"], .file [0x7B, 0x7D] false)], []⟩).1 =
          .error (.write "d/../.state.json.1.tmp" (.other 28 "No space left on device")) := by
      decide +kernel
    rw [hfails] at hends
    have hbefore := (hclaim _ _ _ _ _ _ hends (by decide +kernel) [0x7B, 0x7D]).mp
      (by decide +kernel)
    exact absurd hbefore (by decide +kernel)
  · intro hclaim
    have hends := Plan.ends_run unlinks_withoutDirectories (save "d/state.json" 1 .blank)
      interrupted
    have hfails : ((save "d/state.json" 1 .blank).run withoutDirectories interrupted).1 =
        .error (.write "d" (.other 30 "Read-only file system")) := by
      decide +kernel
    rw [hfails] at hends
    exact hclaim _ _ _ _ _ _ hends (by decide +kernel) [0x7B] (by decide +kernel)

end ServiceWatch.Store
