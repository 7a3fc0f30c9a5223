import Mathlib.Data.Set.Insert
import ServiceWatch.Proofs.Disk.Allows
import ServiceWatch.Proofs.Path
import ServiceWatch.Store

/-!
# The file and the drafts beside it

A process writes to a draft of its own, in the directory of the file.  The draft is never the file
itself, since its name is longer, nor the draft of another process (`apart_draftPath`,
`apart_draftPaths`).  Two disks that differ in drafts and in new directories around the file alone
(`Spares`) therefore have the same at the path: what could be read there can still be read
(`Spares.read`), and where the path is steady nothing else can (`Spares.read_iff`).
-/

namespace ServiceWatch.Store

open Disk (Apart Grows Names)

variable {before middle after : Disk} {path target : String} {process other : ℕ}
  {drafts : Set String} {content : List UInt8}

/-! ### The name of the draft -/

theorem slash_notMem_toDigits (n : ℕ) : '/' ∉ Nat.toDigits 10 n := by
  intro hmem
  exact absurd (Nat.isDigit_of_mem_toDigits (by decide) (by decide) hmem) (by decide)

/-- The last name of the draft of a process. -/
def draftName (path : String) (process : ℕ) : String :=
  "." ++ (Path.name? path).getD "state" ++ "." ++ toString process ++ ".tmp"

theorem slash_notMem_draftName (path : String) (process : ℕ) :
    '/' ∉ (draftName path process).toList := by
  have hname : '/' ∉ ((Path.name? path).getD "state").toList := by
    cases hpath : Path.name? path with
    | none => decide
    | some name => exact Path.slash_notMem_of_name? hpath
  simp [draftName, hname, slash_notMem_toDigits]

/-- Two dots and an ending make more than four characters. -/
theorem draftName_ne_of_short {short : String} (hshort : short.length ≤ 4) (path : String)
    (process : ℕ) : draftName path process ≠ short := by
  rintro rfl
  simp only [draftName, String.length_append] at hshort
  have hdot : ".".length = 1 := rfl
  have hend : ".tmp".length = 4 := rfl
  omega

theorem getLast?_segments_draftPath (path : String) (process : ℕ) :
    (Disk.segments (draftPath path process)).getLast? = some (draftName path process) :=
  Path.getLast?_segments_withName (slash_notMem_draftName path process)
    (draftName_ne_of_short (by decide) path process) path

/-- The name of the draft is another than that of the file, since it is longer. -/
theorem draftName_ne {last : String} (hlast : (Disk.segments path).getLast? = some last)
    (hhere : last ≠ ".") (hup : last ≠ "..") (process : ℕ) : draftName path process ≠ last := by
  intro hsame
  rw [draftName, Path.name?_of_getLast? hlast hhere hup, Option.getD_some] at hsame
  -- one name at both ends, but that of the draft is longer by two dots and more
  have hlength := congrArg String.length hsame
  simp only [String.length_append] at hlength
  have hdot : ".".length = 1 := rfl
  omega

/-- The draft is another file than the one that it is a draft of. -/
theorem apart_draftPath (path : String) (process : ℕ) : Apart path (draftPath path process) := by
  apply Disk.apart_of_getLast?_ne
  intro last hlast hhere hup hsame
  rw [getLast?_segments_draftPath, Option.some_inj] at hsame
  exact draftName_ne hlast hhere hup process hsame

theorem apart_of_mem_draft :
    ∀ draft ∈ ({draftPath path process} : Set String), Apart path draft := by
  rintro draft rfl
  exact apart_draftPath path process

theorem apart_of_mem_range : ∀ draft ∈ Set.range (draftPath path), Apart path draft := by
  rintro _ ⟨process, rfl⟩
  exact apart_draftPath path process

/-- Different processes have different drafts. -/
theorem apart_draftPaths (hne : process ≠ other) (path : String) :
    Apart (draftPath path process) (draftPath path other) := by
  apply Disk.apart_of_getLast?_ne
  intro last hlast _ _ hsame
  rw [getLast?_segments_draftPath, Option.some_inj] at hlast hsame
  have hname := hlast.trans hsame.symm
  have hnumber : process.repr = other.repr := by simpa [draftName] using hname
  have hdigits := congrArg (fun text => Nat.ofDigitChars 10 text.toList 0) hnumber
  exact hne (by simpa using hdigits)

/-! ### Disks that differ in drafts -/

/-- The paths of the directories that the file is in, the innermost first. -/
def enclosing (path : String) : List String :=
  match Path.parent? path with
  | some directory => Path.climb directory
  | none => []

theorem climb_subset_enclosing {outer : String} (hparent : Path.parent? path = some outer) :
    Path.climb outer ⊆ enclosing path := by
  rw [enclosing, hparent]
  exact List.Subset.refl _

/-- Behind a directory that the file is in, the path goes on. -/
theorem exists_of_mem_enclosing {directory : String} (hdirectory : directory ∈ enclosing path) :
    directory ≠ "" ∧ ∃ more : String, path = directory ++ "/" ++ more ∧
      ∃ name ∈ Disk.segments more, name ≠ "." := by
  unfold enclosing at hdirectory
  split at hdirectory
  next outer hparent => exact Path.exists_of_mem_climb hparent hdirectory
  next => exact absurd hdirectory List.not_mem_nil

/-- One of these directories is at the location. -/
def Encloses (disk : Disk) (path : String) (location : Location) : Prop :=
  ∃ directory ∈ enclosing path, disk.find directory = .ok (location, .directory)

/-- Apart from new directories around the file, the disks are the same but for what is at the
drafts. -/
structure Spares (path : String) (drafts : Set String) (before after : Disk) : Prop where
  grows : Grows before after
  node : ∀ location, (∃ draft ∈ drafts, after.Names draft location) ∨
    after.node? location = before.node? location ∨
      before.node? location = none ∧ after.node? location = some .directory ∧
        Encloses after path location

theorem Spares.refl (path : String) (drafts : Set String) (disk : Disk) :
    Spares path drafts disk disk :=
  ⟨Grows.refl disk, fun _ => Or.inr (Or.inl rfl)⟩

theorem Spares.mono {more : Set String} (hspares : Spares path drafts before after)
    (hmore : drafts ⊆ more) : Spares path more before after :=
  ⟨hspares.grows, fun location => (hspares.node location).imp_left fun ⟨draft, hdraft, hnames⟩ =>
    ⟨draft, hmore hdraft, hnames⟩⟩

theorem Encloses.extends {location : Location} (hencloses : Encloses before path location)
    (hextends : Disk.Extends before after) : Encloses after path location := by
  obtain ⟨directory, hdirectory, hfind⟩ := hencloses
  exact ⟨directory, hdirectory, Disk.find_directory_of_extends hextends hfind⟩

theorem Spares.trans (hfirst : Spares path drafts before middle)
    (hsecond : Spares path drafts middle after) : Spares path drafts before after where
  grows := hfirst.grows.trans hsecond.grows
  node := by
    intro location
    rcases hsecond.node location with hnames | hsame | ⟨hnone, hmade, hencloses⟩
    · exact Or.inl hnames
    · rcases hfirst.node location with ⟨draft, hdraft, hnames⟩ | hsame' | ⟨hnone, hmade, hencloses⟩
      · exact Or.inl ⟨draft, hdraft, hnames.extends hsecond.grows.keeps⟩
      · exact Or.inr (Or.inl (hsame.trans hsame'))
      · exact Or.inr (Or.inr ⟨hnone, hsame.trans hmade, hencloses.extends hsecond.grows.keeps⟩)
    · rcases hfirst.node location with ⟨draft, hdraft, hnames⟩ | hsame' | ⟨-, hmade', -⟩
      · exact Or.inl ⟨draft, hdraft, hnames.extends hsecond.grows.keeps⟩
      · exact Or.inr (Or.inr ⟨hsame' ▸ hnone, hmade, hencloses⟩)
      · rw [hnone] at hmade'
        exact absurd hmade' (by simp)

/-- What stands at a location that no draft names does not depend on the drafts. -/
theorem Spares.fileAt?_eq {location : Location} (hspares : Spares path drafts before after)
    (hapart : ∀ draft ∈ drafts, Apart target draft) (hnames : after.Names target location) :
    after.fileAt? location = before.fileAt? location := by
  rcases hspares.node location with ⟨draft, hdraft, hat⟩ | hsame | ⟨hnone, hmade, -⟩
  · exact absurd hat (hapart draft hdraft after location hnames)
  · rw [Disk.fileAt?, Disk.fileAt?, hsame]
  · rw [Disk.fileAt?, Disk.fileAt?, hnone, hmade]

/-- A file apart from the drafts is read as before. -/
theorem Spares.read (hspares : Spares path drafts before after)
    (hapart : ∀ draft ∈ drafts, Apart target draft) (hread : before.read target = .ok content) :
    after.read target = .ok content := by
  obtain ⟨location, hnames, hfile⟩ := Disk.read_eq_ok_iff_fileAt?.mp hread
  have hlater := hnames.extends hspares.grows.keeps
  exact Disk.read_eq_ok_iff_fileAt?.mpr
    ⟨location, hlater, (hspares.fileAt?_eq hapart hlater).trans hfile⟩

/-- A file apart from the drafts that is read was there before, if not at the same path. -/
theorem Spares.stood (hspares : Spares path drafts before after)
    (hapart : ∀ draft ∈ drafts, Apart target draft) (hread : after.read target = .ok content) :
    ∃ location, after.Names target location ∧ before.fileAt? location = some content := by
  obtain ⟨location, hnames, hfile⟩ := Disk.read_eq_ok_iff_fileAt?.mp hread
  exact ⟨location, hnames, (hspares.fileAt?_eq hapart hnames).symm.trans hfile⟩

/-- What is read at a path does not depend on the drafts.  That the path is steady is needed: one
that steps back from a missing directory may come upon a file once that directory is made. -/
theorem Spares.read_iff (hspares : Spares path drafts before after)
    (hapart : ∀ draft ∈ drafts, Apart target draft) (hrooted : before.Rooted)
    (hsteady : before.Steady target) :
    after.read target = .ok content ↔ before.read target = .ok content := by
  constructor
  · intro hread
    obtain ⟨location, hnames, hfile⟩ := hspares.stood hapart hread
    obtain ⟨isProgram, hnode⟩ := Disk.fileAt?_eq_some_iff.mp hfile
    exact Disk.read_eq_ok_iff.mpr
      ⟨location, isProgram, hnames.of_node hrooted hsteady hspares.grows.keeps hnode, hnode⟩
  · exact hspares.read hapart

end ServiceWatch.Store
