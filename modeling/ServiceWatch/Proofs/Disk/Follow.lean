import ServiceWatch.Proofs.Disk.Nodes

/-!
# Where paths lead

A path *names* a location when it can be followed to a name in a directory and does not end in a
slash; only then can there be a file at it.  What a path names stays what it names on every disk
that has at least the same directories (`Names.extends`).  The converse fails in general: a path
through a directory that is missing may step back with `..` and arrive at a file as soon as that
directory is made.  A path without `..` cannot (`Names.of_node`).
-/

namespace ServiceWatch.Disk

variable {disk later : Disk} {path : String} {location other : Location} {target : Target}
  {directory : Location} {segments : List String} {hasSlash : Bool}

/-! ### Following segments -/

theorem child?_eq_ok_iff {name : String} {node : Option Node} :
    disk.child? directory name = .ok node ↔
      name.utf8ByteSize ≤ nameLimit ∧ disk.node? (directory ++ [name]) = node := by
  unfold child?
  split
  next hlong => simp [Nat.not_le_of_lt hlong]
  next hshort => simp [Nat.le_of_not_lt hshort]

/-- Steps from a directory lead to a directory. -/
theorem enter_eq_ok_iff {segment : String} {next : Location} :
    disk.enter directory segment = .ok next ↔
      segment = "." ∧ next = directory ∨
        segment = ".." ∧ next = directory.dropLast ∨
          segment ≠ "." ∧ segment ≠ ".." ∧ segment.utf8ByteSize ≤ nameLimit ∧
            disk.node? (directory ++ [segment]) = some .directory ∧
            next = directory ++ [segment] := by
  unfold enter
  by_cases hhere : segment = "."
  · simp [hhere, eq_comm]
  · by_cases hup : segment = ".."
    · simp [hup, eq_comm]
    · simp only [hhere, hup, if_false, bind_eq_ok_iff, child?_eq_ok_iff, false_and, false_or,
        ne_eq, not_false_eq_true, true_and]
      constructor
      · rintro ⟨node, ⟨hshort, hnode⟩, hnext⟩
        cases node with
        | none => simp at hnext
        | some node =>
            cases node with
            | directory =>
                injection hnext with hnext
                exact ⟨hshort, hnode, hnext.symm⟩
            | file content isProgram => simp at hnext
      · rintro ⟨hshort, hnode, rfl⟩
        exact ⟨some .directory, ⟨hshort, hnode⟩, rfl⟩

theorem enter_of_extends (hextends : Extends disk later) {segment : String} {next : Location}
    (henter : disk.enter directory segment = .ok next) :
    later.enter directory segment = .ok next := by
  rw [enter_eq_ok_iff] at henter ⊢
  rcases henter with hhere | hup | ⟨hne, hne', hshort, hnode, hnext⟩
  · exact Or.inl hhere
  · exact Or.inr (Or.inl hup)
  · exact Or.inr (Or.inr ⟨hne, hne', hshort, hextends.directory _ hnode, hnext⟩)

theorem followSegments_cons {segment next : String} {rest : List String} :
    disk.followSegments hasSlash directory (segment :: next :: rest) = .ok target ↔
      ∃ inner, disk.enter directory segment = .ok inner ∧
        disk.followSegments hasSlash inner (next :: rest) = .ok target := by
  rw [followSegments, bind_eq_ok_iff]
  simp

theorem followSegments_singleton {last name : String} {inner : Location} {slash : Bool} :
    disk.followSegments hasSlash directory [last] = .ok (.entry inner name slash) ↔
      last ≠ "." ∧ last ≠ ".." ∧ inner = directory ∧ name = last ∧ slash = hasSlash := by
  rw [followSegments]
  by_cases hhere : last = "."
  · simp [hhere]
  · by_cases hup : last = ".."
    · simp [hup]
    · simp [hhere, hup, eq_comm]

theorem followSegments_of_extends (hextends : Extends disk later)
    (hfollow : disk.followSegments hasSlash directory segments = .ok target) :
    later.followSegments hasSlash directory segments = .ok target := by
  induction segments generalizing directory with
  | nil => exact hfollow
  | cons segment rest ih =>
      cases rest with
      | nil => exact hfollow
      | cons next rest =>
          obtain ⟨inner, henter, hrest⟩ := followSegments_cons.mp hfollow
          exact followSegments_cons.mpr ⟨inner, enter_of_extends hextends henter, ih hrest⟩

/-! ### Following paths -/

/-- Where a path starts: at the root or at the working directory. -/
def origin (disk : Disk) (path : String) : Location :=
  if path.toList.head? = some '/' then [] else disk.workingDirectory

/-- Whether a path ends in a slash. -/
def endsInSlash (path : String) : Bool :=
  path.toList.getLast? = some '/'

/-- A text that may be a path at all. -/
def IsPath (path : String) : Prop :=
  Char.ofNat 0 ∉ path.toList ∧ path ≠ "" ∧ path.utf8ByteSize ≤ pathLimit

theorem follow_eq_ok_iff :
    disk.follow path = .ok target ↔
      IsPath path ∧
        disk.followSegments (endsInSlash path) (disk.origin path) (Disk.segments path) =
          .ok target := by
  unfold follow IsPath endsInSlash origin
  by_cases hnul : Char.ofNat 0 ∈ path.toList
  · simp [hnul]
  · by_cases hempty : path = ""
    · simp [hempty]
    · by_cases hlong : pathLimit < path.utf8ByteSize
      · simp [hnul, hempty, hlong, Nat.not_le_of_lt hlong]
      · simp [hnul, hempty, hlong, Nat.le_of_not_lt hlong]

theorem Extends.origin (hextends : Extends disk later) (path : String) :
    later.origin path = disk.origin path := by
  unfold Disk.origin
  rw [hextends.workingDirectory]

theorem follow_of_extends (hextends : Extends disk later)
    (hfollow : disk.follow path = .ok target) : later.follow path = .ok target := by
  rw [follow_eq_ok_iff] at hfollow ⊢
  rw [hextends.origin]
  exact ⟨hfollow.1, followSegments_of_extends hextends hfollow.2⟩

theorem Rooted.directory_origin (hrooted : disk.Rooted) (path : String) :
    disk.node? (disk.origin path) = some .directory := by
  unfold origin
  split
  · exact node?_root disk
  · exact hrooted.working

theorem Rooted.directory_enter (hrooted : disk.Rooted) {segment : String} {next : Location}
    (hdirectory : disk.node? directory = some .directory)
    (henter : disk.enter directory segment = .ok next) : disk.node? next = some .directory := by
  rcases enter_eq_ok_iff.mp henter with ⟨-, rfl⟩ | ⟨-, rfl⟩ | ⟨-, -, -, hnode, rfl⟩
  · exact hdirectory
  · exact hrooted.parent _ _ hdirectory
  · exact hnode

/-- What is named last is not `.` or `..`. -/
theorem followSegments_entry {inner : Location} {name : String} {slash : Bool}
    (hfollow : disk.followSegments hasSlash directory segments = .ok (.entry inner name slash)) :
    segments.getLast? = some name ∧ name ≠ "." ∧ name ≠ ".." := by
  induction segments generalizing directory with
  | nil => simp [followSegments] at hfollow
  | cons segment rest ih =>
      cases rest with
      | nil =>
          obtain ⟨hhere, hup, -, rfl, -⟩ := followSegments_singleton.mp hfollow
          exact ⟨rfl, hhere, hup⟩
      | cons next rest =>
          obtain ⟨between, henter, hrest⟩ := followSegments_cons.mp hfollow
          exact ih hrest

/-- What is named last is in a directory. -/
theorem Rooted.directory_followSegments (hrooted : disk.Rooted) {inner : Location} {name : String}
    {slash : Bool} (hdirectory : disk.node? directory = some .directory)
    (hfollow : disk.followSegments hasSlash directory segments = .ok (.entry inner name slash)) :
    disk.node? inner = some .directory := by
  induction segments generalizing directory with
  | nil => simp [followSegments] at hfollow
  | cons segment rest ih =>
      cases rest with
      | nil =>
          obtain ⟨-, -, rfl, -, -⟩ := followSegments_singleton.mp hfollow
          exact hdirectory
      | cons next rest =>
          obtain ⟨between, henter, hrest⟩ := followSegments_cons.mp hfollow
          exact ih (hrooted.directory_enter hdirectory henter) hrest

/-! ### Naming a location -/

/-- The path names the location, at which there may be a file. -/
def Names (disk : Disk) (path : String) (location : Location) : Prop :=
  ∃ directory name, disk.follow path = .ok (.entry directory name false) ∧
    name.utf8ByteSize ≤ nameLimit ∧ location = directory ++ [name]

theorem Names.unique (hfirst : disk.Names path location) (hsecond : disk.Names path other) :
    location = other := by
  obtain ⟨directory, name, hfollow, -, rfl⟩ := hfirst
  obtain ⟨directory', name', hfollow', -, rfl⟩ := hsecond
  rw [hfollow] at hfollow'
  simp only [Except.ok.injEq, Target.entry.injEq] at hfollow'
  rw [hfollow'.1, hfollow'.2.1]

theorem Names.extends (hnames : disk.Names path location) (hextends : Extends disk later) :
    later.Names path location := by
  obtain ⟨directory, name, hfollow, hshort, hlocation⟩ := hnames
  exact ⟨directory, name, follow_of_extends hextends hfollow, hshort, hlocation⟩

theorem Names.ne_nil (hnames : disk.Names path location) : location ≠ [] := by
  obtain ⟨directory, name, -, -, rfl⟩ := hnames
  simp

theorem Names.parent (hnames : disk.Names path location) (hrooted : disk.Rooted) :
    disk.node? location.dropLast = some .directory := by
  obtain ⟨directory, name, hfollow, -, rfl⟩ := hnames
  rw [List.dropLast_concat]
  exact hrooted.directory_followSegments (hrooted.directory_origin path)
    (follow_eq_ok_iff.mp hfollow).2

/-- The last name of a location is the last segment of the path. -/
theorem Names.getLast? (hnames : disk.Names path location) :
    ∃ name, location.getLast? = some name ∧ (Disk.segments path).getLast? = some name ∧
      name ≠ "." ∧ name ≠ ".." := by
  obtain ⟨directory, name, hfollow, -, rfl⟩ := hnames
  obtain ⟨hlast, hhere, hup⟩ := followSegments_entry (follow_eq_ok_iff.mp hfollow).2
  exact ⟨name, List.getLast?_concat, hlast, hhere, hup⟩

/-- The two paths never name the same location. -/
def Apart (path other : String) : Prop :=
  ∀ (disk : Disk) location, disk.Names path location → ¬ disk.Names other location

theorem Apart.symm {other : String} (hapart : Apart path other) : Apart other path :=
  fun disk location hother hpath => hapart disk location hpath hother

/-- Paths with different last segments are apart. -/
theorem apart_of_getLast?_ne {other : String}
    (hne : ∀ name, (Disk.segments path).getLast? = some name → name ≠ "." → name ≠ ".." →
      (Disk.segments other).getLast? ≠ some name) : Apart path other := by
  intro disk location hnames hother
  obtain ⟨name, hend, hlast, hhere, hup⟩ := hnames.getLast?
  obtain ⟨otherName, hotherEnd, hotherLast, -, -⟩ := hother.getLast?
  rw [hend, Option.some_inj] at hotherEnd
  exact hne name hlast hhere hup (hotherEnd ▸ hotherLast)

/-! ### Paths that do not step back -/

/-- Without `..`, a path can be followed on every disk that has a node where it leads on one. -/
theorem Rooted.followSegments_of_node (hrooted : disk.Rooted) (hup : ".." ∉ segments)
    {inner : Location} {name : String} {slash : Bool}
    (hfollow : later.followSegments hasSlash directory segments = .ok (.entry inner name slash))
    {node : Node} (hnode : disk.node? (inner ++ [name]) = some node) :
    disk.followSegments hasSlash directory segments = .ok (.entry inner name slash) ∧
      directory <+: inner := by
  induction segments generalizing directory with
  | nil => simp [followSegments] at hfollow
  | cons segment rest ih =>
      cases rest with
      | nil =>
          obtain ⟨-, -, rfl, -, -⟩ := followSegments_singleton.mp hfollow
          exact ⟨hfollow, List.prefix_rfl⟩
      | cons next rest =>
          obtain ⟨between, henter, hrest⟩ := followSegments_cons.mp hfollow
          obtain ⟨hfollow', hprefix⟩ := ih (fun h => hup (List.mem_cons_of_mem _ h)) hrest
          -- a step to a name is one on this disk too, as the node further on stands below it
          rcases enter_eq_ok_iff.mp henter with ⟨rfl, rfl⟩ | ⟨rfl, -⟩ | ⟨hne, hne', hshort, -, rfl⟩
          · exact ⟨followSegments_cons.mpr
              ⟨between, enter_eq_ok_iff.mpr (Or.inl ⟨rfl, rfl⟩), hfollow'⟩, hprefix⟩
          · exact absurd (List.mem_cons_self ..) hup
          · obtain ⟨more, rfl⟩ := hprefix
            have hdirectory : disk.node? (directory ++ [segment]) = some .directory := by
              rw [List.append_assoc (directory ++ [segment])] at hnode
              exact hrooted.directory_of_append hnode (by simp)
            refine ⟨followSegments_cons.mpr ⟨_, enter_eq_ok_iff.mpr
              (Or.inr (Or.inr ⟨hne, hne', hshort, hdirectory, rfl⟩)), hfollow'⟩, ?_⟩
            exact (List.prefix_append directory [segment]).trans (List.prefix_append _ more)

/-- A path leads to the same place on all disks that extend this one: it can be followed already,
or it does not step back. -/
def Steady (disk : Disk) (path : String) : Prop :=
  (∃ target, disk.follow path = .ok target) ∨ ".." ∉ Disk.segments path

theorem Steady.extends (hsteady : disk.Steady path) (hextends : Extends disk later) :
    later.Steady path := by
  rcases hsteady with ⟨target, hfollow⟩ | hup
  · exact Or.inl ⟨target, follow_of_extends hextends hfollow⟩
  · exact Or.inr hup

/-- A steady path names what it will name, if something is there already. -/
theorem Names.of_node (hnames : later.Names path location) (hrooted : disk.Rooted)
    (hsteady : disk.Steady path) (hextends : Extends disk later) {node : Node}
    (hnode : disk.node? location = some node) : disk.Names path location := by
  obtain ⟨directory, name, hfollow, hshort, rfl⟩ := hnames
  rcases hsteady with ⟨target, hsteady⟩ | hup
  · -- the path can be followed already, and both ways it leads to the same target
    have hlater := follow_of_extends hextends hsteady
    rw [hfollow] at hlater
    injection hlater with hlater
    exact ⟨directory, name, hlater ▸ hsteady, hshort, rfl⟩
  · obtain ⟨hpath, hsegments⟩ := follow_eq_ok_iff.mp hfollow
    rw [hextends.origin] at hsegments
    exact ⟨directory, name, follow_eq_ok_iff.mpr
      ⟨hpath, (hrooted.followSegments_of_node hup hsegments hnode).1⟩, hshort, rfl⟩

end ServiceWatch.Disk
