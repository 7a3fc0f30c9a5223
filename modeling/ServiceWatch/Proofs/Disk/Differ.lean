import ServiceWatch.Proofs.Disk.Sibling

/-!
# Disks that differ in one file

Two disks are the same but for the file at one location, which may be missing on one of them
(`Differ`).  They have the same directories, so a path that leads elsewhere is followed alike on
both, and whatever is done there succeeds on both or is refused on both for the same reason
(`Corresponds`).  Moving a file to the location does away with the difference; up to then each disk
keeps what it had there.
-/

namespace ServiceWatch.Disk

variable {location place : Location} {left right : Option Node} {first second : Disk}
  {path source target name : String} {bytes : List UInt8}

/-! ### The difference -/

/-- The disks are the same but for the location, which is no directory: there they have the same by
now, or still `left` and `right`. -/
structure Differ (location : Location) (left right : Option Node) (first second : Disk) :
    Prop where
  workingDirectory : second.workingDirectory = first.workingDirectory
  elsewhere : ∀ place, place ≠ location → second.node? place = first.node? place
  here : second.node? location = first.node? location ∨
    first.node? location = left ∧ second.node? location = right
  first_file : first.node? location ≠ some .directory
  second_file : second.node? location ≠ some .directory

theorem Differ.symm (hdiffer : Differ location left right first second) :
    Differ location right left second first where
  workingDirectory := hdiffer.workingDirectory.symm
  elsewhere := fun place hplace => (hdiffer.elsewhere place hplace).symm
  here := hdiffer.here.imp Eq.symm And.symm
  first_file := hdiffer.second_file
  second_file := hdiffer.first_file

/-- Both disks have the same directories. -/
theorem Differ.extends (hdiffer : Differ location left right first second) :
    Extends first second where
  workingDirectory := hdiffer.workingDirectory
  directory := by
    intro place hplace
    have hne : place ≠ location := by
      rintro rfl
      exact hdiffer.first_file hplace
    rw [hdiffer.elsewhere place hne]
    exact hplace

/-- The same node is put on both disks. -/
theorem Differ.put {node : Node} (hdiffer : Differ location left right first second)
    (hplace : place ≠ []) (hnode : place = location → node ≠ .directory) :
    Differ location left right (first.put place node) (second.put place node) := by
  have hfile {disk : Disk} (hdisk : disk.node? location ≠ some .directory) :
      (disk.put place node).node? location ≠ some .directory := by
    rw [node?_put hplace]
    split
    next hsame => simpa using hnode hsame.symm
    next => exact hdisk
  refine ⟨hdiffer.workingDirectory, fun other hother => ?_, ?_, hfile hdiffer.first_file,
    hfile hdiffer.second_file⟩
  · rw [node?_put hplace, node?_put hplace, hdiffer.elsewhere other hother]
  · rw [node?_put hplace, node?_put hplace]
    split
    next => exact Or.inl rfl
    next => exact hdiffer.here

theorem Differ.drop (hdiffer : Differ location left right first second) (hplace : place ≠ [])
    (hother : place ≠ location) :
    Differ location left right (first.drop place) (second.drop place) := by
  have hhere {disk : Disk} : (disk.drop place).node? location = disk.node? location := by
    rw [node?_drop hplace, if_neg hother.symm]
  refine ⟨hdiffer.workingDirectory, fun other hne => ?_, ?_, ?_, ?_⟩
  · rw [node?_drop hplace, node?_drop hplace, hdiffer.elsewhere other hne]
  · rw [hhere, hhere]
    exact hdiffer.here
  · rw [hhere]
    exact hdiffer.first_file
  · rw [hhere]
    exact hdiffer.second_file

/-! ### Actions elsewhere -/

/-- What is done succeeds on both disks, with related results, or is refused on both alike. -/
inductive Corresponds (related : Disk → Disk → Prop) :
    Except SystemError Disk → Except SystemError Disk → Prop
  | done {first second : Disk} (hrelated : related first second) :
      Corresponds related (.ok first) (.ok second)
  | refused (refusal : SystemError) : Corresponds related (.error refusal) (.error refusal)

/-- Both disks follow the path alike, and not to the location. -/
structure Beside (location : Location) (path : String) (first second : Disk) : Prop where
  follow : second.follow path = first.follow path
  apart : ∀ directory name hasSlash, first.follow path = .ok (.entry directory name hasSlash) →
    directory ++ [name] ≠ location

theorem Differ.child?_eq (hdiffer : Differ location left right first second) {directory : Location}
    (hother : directory ++ [name] ≠ location) :
    second.child? directory name = first.child? directory name := by
  unfold child?
  rw [hdiffer.elsewhere _ hother]

theorem Differ.find_eq (hdiffer : Differ location left right first second)
    (hbeside : Beside location path first second) : second.find path = first.find path := by
  rw [find_eq_follow, find_eq_follow, hbeside.follow]
  cases hfollow : first.follow path with
  | error refusal => rfl
  | ok reached =>
      cases reached with
      | place place => rfl
      | entry directory name hasSlash =>
          have hchild := hdiffer.child?_eq (hbeside.apart _ _ _ hfollow)
          simp only [resolve, bind, Except.bind, hchild]

theorem Differ.create (hdiffer : Differ location left right first second)
    (hbeside : Beside location path first second) :
    Corresponds (Differ location left right) (first.create path) (second.create path) := by
  unfold Disk.create
  rw [hbeside.follow]
  cases hfollow : first.follow path with
  | error refusal => exact .refused refusal
  | ok reached =>
      cases reached with
      | place place => exact .refused _
      | entry directory name hasSlash =>
          have hother := hbeside.apart _ _ _ hfollow
          have hput (node : Node) : Differ location left right
              (first.put (directory ++ [name]) node) (second.put (directory ++ [name]) node) :=
            hdiffer.put (by simp) fun hsame => absurd hsame hother
          simp only [bind, Except.bind, hdiffer.child?_eq hother]
          split
          next => exact .refused _
          next =>
            rcases first.child? directory name with refusal | _ | _ | ⟨content, isProgram⟩
            · exact .refused refusal
            · exact .done (hput _)
            · exact .refused _
            · exact .done (hput _)

theorem Differ.append (hdiffer : Differ location left right first second)
    (hbeside : Beside location path first second) (bytes : List UInt8) :
    Corresponds (Differ location left right) (first.append path bytes)
      (second.append path bytes) := by
  unfold Disk.append
  rw [hdiffer.find_eq hbeside]
  cases hfind : first.find path with
  | error refusal => exact .refused refusal
  | ok found =>
      obtain ⟨place, _ | ⟨content, isProgram⟩⟩ := found
      · exact .refused _
      · obtain ⟨⟨directory, name, hfollow, -, rfl⟩, -⟩ := find_eq_file_iff.mp hfind
        have hother := hbeside.apart _ _ _ hfollow
        exact .done (hdiffer.put (by simp) fun hsame => absurd hsame hother)

theorem Differ.remove (hdiffer : Differ location left right first second)
    (hbeside : Beside location path first second) :
    Corresponds (Differ location left right) (first.remove path) (second.remove path) := by
  unfold Disk.remove
  rw [hbeside.follow]
  cases hfollow : first.follow path with
  | error refusal => exact .refused refusal
  | ok reached =>
      cases reached with
      | place place => exact .refused _
      | entry directory name hasSlash =>
          have hother := hbeside.apart _ _ _ hfollow
          simp only [bind, Except.bind, hdiffer.child?_eq hother]
          rcases first.child? directory name with refusal | _ | _ | ⟨content, isProgram⟩
          · exact .refused refusal
          · exact .refused _
          · exact .refused _
          · cases hasSlash with
            | true => exact .refused _
            | false => exact .done (hdiffer.drop (by simp) hother)

/-- A file is moved to the location on both disks, whatever was there. -/
theorem Differ.rename (hdiffer : Differ location left right first second)
    (hbeside : Beside location source first second) (hnames : first.Names target location) :
    Corresponds (Differ location left right) (first.rename source target)
      (second.rename source target) := by
  obtain ⟨newPlace, newName, hnew, hshort, rfl⟩ := hnames
  have hchild (disk : Disk) :
      disk.child? newPlace newName = .ok (disk.node? (newPlace ++ [newName])) :=
    child?_eq_ok_iff.mpr ⟨hshort, rfl⟩
  unfold Disk.rename
  rw [hbeside.follow, hnew, follow_of_extends hdiffer.extends hnew]
  cases hfollow : first.follow source with
  | error refusal => exact .refused refusal
  | ok reached =>
      cases reached with
      | place place => exact .refused _
      | entry directory name hasSlash =>
          have hother := hbeside.apart _ _ _ hfollow
          simp only [bind, Except.bind, hdiffer.child?_eq hother, hchild]
          rcases first.child? directory name with refusal | _ | _ | ⟨content, isProgram⟩
          · exact .refused refusal
          · exact .refused _
          · exact .refused _
          · cases hasSlash with
            | true => exact .refused _
            | false =>
                have hmoved : Differ (newPlace ++ [newName]) left right
                    ((first.drop (directory ++ [name])).put (newPlace ++ [newName])
                      (.file content isProgram))
                    ((second.drop (directory ++ [name])).put (newPlace ++ [newName])
                      (.file content isProgram)) :=
                  (hdiffer.drop (by simp) hother).put (by simp) fun _ => by simp
                simpa [hdiffer.first_file, hdiffer.second_file, hother] using .done hmoved

/-! ### Directories that are there -/

theorem makeDirectory_of_find {inner : Location} {disk : Disk}
    (hfind : disk.find path = .ok (inner, .directory)) :
    disk.makeDirectory path = .error .alreadyExists := by
  rw [find_eq_follow] at hfind
  obtain ⟨reached, hfollow, hresolve⟩ := bind_eq_ok_iff.mp hfind
  unfold Disk.makeDirectory
  rw [hfollow]
  cases reached with
  | place place => rfl
  | entry directory name hasSlash =>
      obtain ⟨child, hchild, hfound⟩ := bind_eq_ok_iff.mp hresolve
      cases child with
      | none => exact absurd hfound (by simp)
      | some node => simp [hchild, bind, Except.bind]

theorem isDirectory_of_find {inner : Location} {disk : Disk}
    (hfind : disk.find path = .ok (inner, .directory)) : disk.isDirectory path = true := by
  simp [Disk.isDirectory, hfind]

/-! ### Beside the location -/

/-- What is no path is refused on every disk for the same reason. -/
theorem follow_of_not_isPath (hpath : ¬ IsPath path) (first second : Disk) :
    second.follow path = first.follow path := by
  unfold follow
  by_cases hnul : Char.ofNat 0 ∈ path.toList
  · simp [hnul]
  · by_cases hempty : path = ""
    · simp [hempty]
    · have hlong : pathLimit < path.utf8ByteSize := by
        by_contra hshort
        exact hpath ⟨hnul, hempty, Nat.not_lt.mp hshort⟩
      simp [hnul, hempty, hlong]

/-- The path with another name in place of the last one leads past the location. -/
theorem Differ.beside_withName (hdiffer : Differ location left right first second)
    (hnames : first.Names path location) (hslash : '/' ∉ name.toList) (hfull : name ≠ "")
    (hhere : name ≠ ".") (hup : name ≠ "..") (hother : location.getLast? ≠ some name) :
    Beside location (Path.withName path name) first second := by
  by_cases hpath : IsPath (Path.withName path name)
  · have hfirst := hnames.follow_withName hslash hfull hhere hup hpath
    have hsecond := (hnames.extends hdiffer.extends).follow_withName hslash hfull hhere hup hpath
    refine ⟨hsecond.trans hfirst.symm, ?_⟩
    intro directory last hasSlash hfollow hsame
    rw [hfirst] at hfollow
    obtain ⟨-, rfl, -⟩ := Target.entry.inj (Except.ok.inj hfollow)
    exact hother (by rw [← hsame, List.getLast?_concat])
  · refine ⟨follow_of_not_isPath hpath first second, ?_⟩
    intro directory last hasSlash hfollow
    exact absurd (follow_eq_ok_iff.mp hfollow).1 hpath

end ServiceWatch.Disk
