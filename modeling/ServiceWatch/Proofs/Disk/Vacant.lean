import ServiceWatch.Proofs.Disk.Allows
import ServiceWatch.Proofs.Path

/-!
# Paths at which nothing is found

Nothing is found at a path because its last name is not in its directory, or because a directory on
the way is missing.  When directories are made later, a path may come to lead somewhere else, for
two reasons: it steps back with `..` from a directory that was missing, or a name in it is too long,
which is noticed only once its directory is there.  A path that is *firm* has neither behind a
missing directory, so as long as only directories are made there is nothing at it, or one of the
directories that were made (`lacks_seek`).

## Strategy

`seek` follows segments and tells what is there.  Below a directory that is missing everything is
missing, so each further segment leads to a new directory or to nothing (`lacks_seek_below`); up to
that directory both disks lead the same way (`lacks_seek`).
-/

namespace ServiceWatch.Disk

variable {disk later before after : Disk} {path : String} {location directory : Location}
  {node : Node} {segment : String} {segments rest : List String}
  {hasSlash slash : Bool}

/-! ### Seeking -/

/-- What is at a target. -/
def resolve (disk : Disk) : Target → Except SystemError (Location × Node)
  | .place location => .ok (location, .directory)
  | .entry directory name hasSlash => do
    match ← disk.child? directory name with
    | none => .error .notFound
    | some (.file content isProgram) =>
      if hasSlash then .error .notDirectory
      else .ok (directory ++ [name], .file content isProgram)
    | some .directory => .ok (directory ++ [name], .directory)

/-- What segments lead to from a directory. -/
def seek (disk : Disk) (hasSlash : Bool) (directory : Location) (segments : List String) :
    Except SystemError (Location × Node) :=
  disk.followSegments hasSlash directory segments >>= disk.resolve

theorem find_eq_follow (disk : Disk) (path : String) :
    disk.find path = disk.follow path >>= disk.resolve := rfl

theorem find_eq_seek (hpath : IsPath path) (disk : Disk) :
    disk.find path =
      disk.seek (endsInSlash path) (disk.origin path) (Disk.segments path) := by
  obtain ⟨hnul, hne, hshort⟩ := hpath
  have hfollow : disk.follow path = disk.followSegments (endsInSlash path) (disk.origin path)
      (Disk.segments path) := by
    simp [follow, hnul, hne, Nat.not_lt.mpr hshort, endsInSlash, origin]
  rw [find_eq_follow, hfollow, seek]

/-- Of what is no path only the empty text is said to lead to nothing. -/
theorem find_of_not_isPath (hpath : ¬ IsPath path) (disk : Disk) :
    ∃ refusal, disk.find path = .error refusal ∧ (refusal = .notFound → path = "") := by
  unfold IsPath at hpath
  rw [find_eq_follow, follow]
  by_cases hnul : Char.ofNat 0 ∈ path.toList
  · exact ⟨.nulInPath, by simp [hnul, bind, Except.bind], by simp⟩
  · by_cases hempty : path = ""
    · exact ⟨.notFound, by simp [hempty, bind, Except.bind], fun _ => hempty⟩
    · have hlong : pathLimit < path.utf8ByteSize := by
        by_contra hshort
        exact hpath ⟨hnul, hempty, Nat.not_lt.mp hshort⟩
      exact ⟨.nameTooLong, by simp [hnul, hempty, hlong, bind, Except.bind], by simp⟩

theorem seek_nil : disk.seek hasSlash directory [] = .ok (directory, .directory) := rfl

/-- A step into a directory that is there. -/
theorem seek_cons_of_enter {inner : Location} (henter : disk.enter directory segment = .ok inner) :
    disk.seek hasSlash directory (segment :: rest) = disk.seek hasSlash inner rest := by
  cases rest with
  | cons next rest => simp [seek, followSegments, henter, bind, Except.bind]
  | nil =>
      rcases enter_eq_ok_iff.mp henter with ⟨rfl, rfl⟩ | ⟨rfl, rfl⟩ |
        ⟨hhere, hup, hshort, hnode, rfl⟩
      · rfl
      · rfl
      · have hchild := child?_eq_ok_iff.mpr ⟨hshort, hnode⟩
        simp [seek, followSegments, resolve, hhere, hup, hchild, bind, Except.bind]

theorem seek_here : disk.seek hasSlash directory ("." :: rest) = disk.seek hasSlash directory rest :=
  seek_cons_of_enter (enter_eq_ok_iff.mpr (Or.inl ⟨rfl, rfl⟩))

/-- Steps from a directory into the one that the segments lead to. -/
def walk (disk : Disk) : Location → List String → Except SystemError Location :=
  List.foldlM disk.enter

theorem walk_cons {target : Location} :
    disk.walk directory (segment :: rest) = .ok target ↔
      ∃ inner, disk.enter directory segment = .ok inner ∧ disk.walk inner rest = .ok target := by
  rw [walk, List.foldlM_cons, bind_eq_ok_iff]

theorem walk_append {target : Location} :
    disk.walk directory (segments ++ rest) = .ok target ↔
      ∃ inner, disk.walk directory segments = .ok inner ∧ disk.walk inner rest = .ok target := by
  rw [walk, List.foldlM_append, bind_eq_ok_iff]

theorem walk_of_extends (hextends : Extends disk later) {target : Location}
    (hwalk : disk.walk directory segments = .ok target) :
    later.walk directory segments = .ok target := by
  induction segments generalizing directory with
  | nil => exact hwalk
  | cons segment rest ih =>
      obtain ⟨inner, henter, hinner⟩ := walk_cons.mp hwalk
      exact walk_cons.mpr ⟨inner, enter_of_extends hextends henter, ih hinner⟩

theorem Rooted.directory_walk (hrooted : disk.Rooted) {target : Location}
    (hdirectory : disk.node? directory = some .directory)
    (hwalk : disk.walk directory segments = .ok target) :
    disk.node? target = some .directory := by
  induction segments generalizing directory with
  | nil =>
      obtain rfl := Except.ok.inj hwalk
      exact hdirectory
  | cons segment rest ih =>
      obtain ⟨inner, henter, hinner⟩ := walk_cons.mp hwalk
      exact ih (hrooted.directory_enter hdirectory henter) hinner

theorem seek_of_walk {inner : Location} (hwalk : disk.walk directory segments = .ok inner) :
    disk.seek hasSlash directory (segments ++ rest) = disk.seek hasSlash inner rest := by
  induction segments generalizing directory with
  | nil =>
      obtain rfl := Except.ok.inj hwalk
      rfl
  | cons segment others ih =>
      obtain ⟨between, henter, hbetween⟩ := walk_cons.mp hwalk
      rw [List.cons_append, seek_cons_of_enter henter]
      exact ih hbetween

theorem exists_walk_of_entry {inner : Location} {name : String}
    (hfollow : disk.followSegments hasSlash directory segments = .ok (.entry inner name slash)) :
    ∃ front, segments = front ++ [name] ∧ disk.walk directory front = .ok inner := by
  induction segments generalizing directory with
  | nil => simp [followSegments] at hfollow
  | cons segment rest ih =>
      cases rest with
      | nil =>
          obtain ⟨-, -, rfl, rfl, -⟩ := followSegments_singleton.mp hfollow
          exact ⟨[], rfl, rfl⟩
      | cons next rest =>
          obtain ⟨between, henter, hrest⟩ := followSegments_cons.mp hfollow
          obtain ⟨front, hfront, hwalk⟩ := ih hrest
          exact ⟨segment :: front, by rw [hfront, List.cons_append],
            walk_cons.mpr ⟨between, henter, hwalk⟩⟩

/-! ### Segments that do not step back -/

/-- A segment that is neither `.` nor `..` and not too long. -/
structure IsName (segment : String) : Prop where
  not_here : segment ≠ "."
  not_up : segment ≠ ".."
  short : segment.utf8ByteSize ≤ nameLimit

theorem IsName.seek_of_directory (hname : IsName segment)
    (hnode : disk.node? (directory ++ [segment]) = some .directory) :
    disk.seek hasSlash directory (segment :: rest) =
      disk.seek hasSlash (directory ++ [segment]) rest :=
  seek_cons_of_enter (enter_eq_ok_iff.mpr
    (Or.inr (Or.inr ⟨hname.not_here, hname.not_up, hname.short, hnode, rfl⟩)))

theorem IsName.seek_of_none (hname : IsName segment)
    (hnode : disk.node? (directory ++ [segment]) = none) :
    disk.seek hasSlash directory (segment :: rest) = .error .notFound := by
  have hchild := child?_eq_ok_iff.mpr ⟨hname.short, hnode⟩
  cases rest with
  | nil =>
      simp [seek, followSegments, resolve, hname.not_here, hname.not_up, hchild, bind, Except.bind]
  | cons next rest =>
      simp [seek, followSegments, enter, hname.not_here, hname.not_up, hchild, bind, Except.bind]

theorem IsName.seek_of_file (hname : IsName segment) {content : List UInt8} {isProgram : Bool}
    (hnode : disk.node? (directory ++ [segment]) = some (.file content isProgram))
    (hasSlash : Bool) (rest : List String) :
    disk.seek hasSlash directory (segment :: rest) = .error .notDirectory ∨
      disk.seek hasSlash directory (segment :: rest) =
        .ok (directory ++ [segment], .file content isProgram) ∧ rest = [] := by
  have hchild := child?_eq_ok_iff.mpr ⟨hname.short, hnode⟩
  cases rest with
  | nil =>
      cases hasSlash <;>
        simp [seek, followSegments, resolve, hname.not_here, hname.not_up, hchild, bind,
          Except.bind]
  | cons next rest =>
      simp [seek, followSegments, enter, hname.not_here, hname.not_up, hchild, bind, Except.bind]

/-- The segments that are steps to something. -/
def names (segments : List String) : List String :=
  segments.filter fun segment => segment ≠ "."

@[simp] theorem names_nil : names [] = [] := rfl

@[simp] theorem names_here : names ("." :: rest) = names rest := rfl

theorem IsName.names_cons (hname : IsName segment) :
    names (segment :: rest) = segment :: names rest := by
  simp [names, hname.not_here]

theorem names_append (segments rest : List String) :
    names (segments ++ rest) = names segments ++ names rest :=
  List.filter_append ..

/-- No segment steps back, and none is too long. -/
def ArePlain (segments : List String) : Prop :=
  ∀ segment ∈ segments, segment ≠ ".." ∧ segment.utf8ByteSize ≤ nameLimit

instance (segments : List String) : Decidable (ArePlain segments) :=
  inferInstanceAs (Decidable (∀ segment ∈ segments, _))

/-- Plain segments are dots and names. -/
theorem ArePlain.cases (hplain : ArePlain (segment :: rest)) :
    (segment = "." ∨ IsName segment) ∧ ArePlain rest := by
  obtain ⟨⟨hup, hshort⟩, hrest⟩ := List.forall_mem_cons.mp hplain
  refine ⟨?_, hrest⟩
  by_cases hhere : segment = "."
  · exact Or.inl hhere
  · exact Or.inr ⟨hhere, hup, hshort⟩

/-- Names are added to the directory one by one. -/
theorem location_of_seek (hplain : ArePlain segments)
    (hseek : disk.seek hasSlash directory segments = .ok (location, node)) :
    location = directory ++ names segments := by
  induction segments generalizing directory with
  | nil =>
      obtain ⟨rfl, rfl⟩ : directory = location ∧ Node.directory = node := by
        simpa [seek_nil] using hseek
      simp
  | cons segment rest ih =>
      obtain ⟨rfl | hname, hrest⟩ := hplain.cases
      · rw [seek_here] at hseek
        exact ih hrest hseek
      · rw [hname.names_cons]
        rcases hnode : disk.node? (directory ++ [segment]) with _ | _ | ⟨content, isProgram⟩
        · rw [hname.seek_of_none hnode] at hseek
          exact absurd hseek (by simp)
        · rw [hname.seek_of_directory hnode] at hseek
          rw [ih hrest hseek, List.append_assoc, List.singleton_append]
        · rcases hname.seek_of_file hnode hasSlash rest with
            hrefused | ⟨hfound, rfl⟩
          · rw [hrefused] at hseek
            exact absurd hseek (by simp)
          · rw [hfound] at hseek
            exact (Prod.mk.inj (Except.ok.inj hseek)).1.symm

/-- Nothing is found, or a directory where there was nothing before. -/
def Lacks (before after : Disk) (location : Location)
    (found : Except SystemError (Location × Node)) : Prop :=
  found = .error .notFound ∨ found = .ok (location, .directory) ∧
    before.node? location = none ∧ after.node? location = some .directory

/-- Below a missing directory there is nothing but what was made since. -/
theorem lacks_seek_below
    (hmade : ∀ place, before.node? place = none →
      after.node? place = none ∨ after.node? place = some .directory)
    (hplain : ArePlain segments) (hnone : ∀ further, before.node? (directory ++ further) = none)
    (hdirectory : after.node? directory = some .directory) :
    Lacks before after (directory ++ names segments)
      (after.seek hasSlash directory segments) := by
  induction segments generalizing directory with
  | nil =>
      refine Or.inr ⟨by simp [seek_nil], hnone _, ?_⟩
      rw [names_nil, List.append_nil]
      exact hdirectory
  | cons segment rest ih =>
      obtain ⟨rfl | hname, hrest⟩ := hplain.cases
      · rw [seek_here]
        exact ih hrest hnone hdirectory
      · rcases hmade _ (hnone [segment]) with hstill | hnew
        · exact Or.inl (hname.seek_of_none hstill)
        · rw [hname.seek_of_directory hnew, hname.names_cons, ← List.singleton_append,
            ← List.append_assoc]
          refine ih hrest (fun further => ?_) hnew
          rw [List.append_assoc]
          exact hnone _

/-- Where nothing was found there is nothing but what was made since. -/
theorem lacks_seek (hrooted : before.Rooted) (hextends : Extends before after)
    (hmade : ∀ place, before.node? place = none →
      after.node? place = none ∨ after.node? place = some .directory)
    (hplain : ArePlain segments)
    (hseek : before.seek hasSlash directory segments = .error .notFound) :
    Lacks before after (directory ++ names segments)
      (after.seek hasSlash directory segments) := by
  induction segments generalizing directory with
  | nil => exact absurd hseek (by simp [seek_nil])
  | cons segment rest ih =>
      obtain ⟨rfl | hname, hrest⟩ := hplain.cases
      · rw [seek_here] at hseek ⊢
        exact ih hrest hseek
      · rw [hname.names_cons, ← List.singleton_append, ← List.append_assoc]
        rcases hnode : before.node? (directory ++ [segment]) with _ | _ | ⟨content, isProgram⟩
        · -- this is the first directory that is missing
          rcases hmade _ hnode with hstill | hnew
          · exact Or.inl (hname.seek_of_none hstill)
          · rw [hname.seek_of_directory hnew]
            exact lacks_seek_below hmade hrest (hrooted.node?_append_eq_none hnode) hnew
        · rw [hname.seek_of_directory hnode] at hseek
          rw [hname.seek_of_directory (hextends.directory _ hnode)]
          exact ih hrest hseek
        · rcases hname.seek_of_file hnode hasSlash rest with
            hrefused | ⟨hfound, -⟩
          · rw [hrefused] at hseek
            exact absurd hseek (by simp)
          · rw [hfound] at hseek
            exact absurd hseek (by simp)

/-! ### Firm paths -/

/-- The path has a part that leads to a directory, and behind it neither a `..` nor a name that is
too long. -/
def Firm (disk : Disk) (path : String) : Prop :=
  ∃ front rest inner, Disk.segments path = front ++ rest ∧
    disk.walk (disk.origin path) front = .ok inner ∧ ArePlain rest

theorem Firm.extends (hfirm : before.Firm path) (hextends : Extends before after) :
    after.Firm path := by
  obtain ⟨front, rest, inner, hsegments, hwalk, hplain⟩ := hfirm
  refine ⟨front, rest, inner, hsegments, ?_, hplain⟩
  rw [hextends.origin]
  exact walk_of_extends hextends hwalk

/-- A path that steps nowhere back and has no name that is too long is firm. -/
theorem ArePlain.firm (hplain : ArePlain (Disk.segments path)) (disk : Disk) : disk.Firm path :=
  ⟨[], Disk.segments path, disk.origin path, rfl, rfl, hplain⟩

/-- The path goes on behind the directory at the location. -/
def Passes (disk : Disk) (path : String) (location : Location) : Prop :=
  ∃ front more, front ≠ "" ∧ path = front ++ "/" ++ more ∧
    (∃ name ∈ Disk.segments more, name ≠ ".") ∧ disk.find front = .ok (location, .directory)

theorem IsPath.of_append {front more : String} (hpath : IsPath (front ++ "/" ++ more))
    (hne : front ≠ "") : IsPath front := by
  obtain ⟨hnul, -, hshort⟩ := hpath
  refine ⟨fun hmem => hnul (by simp [hmem]), hne, ?_⟩
  simp only [String.utf8ByteSize_append] at hshort
  omega

theorem origin_append {front : String} (hne : front ≠ "") (disk : Disk) (more : String) :
    disk.origin (front ++ "/" ++ more) = disk.origin front := by
  have hfull : front.toList ≠ [] := fun hempty => hne (String.toList_inj.mp hempty)
  obtain ⟨first, others, hfront⟩ := List.exists_cons_of_ne_nil hfull
  simp [origin, hfront]

/-- A directory that a path goes on behind was there already, or it is further out than where the
plain rest of the path leads. -/
theorem Passes.cases {front rest : List String} {inner : Location}
    (hpasses : after.Passes path location) (hpath : IsPath path) (hrooted : before.Rooted)
    (hextends : Extends before after) (hsegments : Disk.segments path = front ++ rest)
    (hwalk : before.walk (before.origin path) front = .ok inner) (hplain : ArePlain rest) :
    before.node? location = some .directory ∨ location ≠ inner ++ names rest := by
  obtain ⟨outer, more, hne, rfl, ⟨name, hname, hhere⟩, hfind⟩ := hpasses
  rw [find_eq_seek (hpath.of_append hne), hextends.origin] at hfind
  rw [Path.segments_append_slash] at hsegments
  rw [origin_append hne] at hwalk
  rcases List.append_eq_append_iff.mp hsegments with ⟨between, hfront, -⟩ | ⟨between, houter, hrest⟩
  · -- the directory is in the part that could be followed
    obtain ⟨mid, hmid, -⟩ := walk_append.mp (hfront ▸ hwalk)
    have hsame : after.seek (endsInSlash outer) (before.origin outer) (Disk.segments outer ++ []) =
        after.seek (endsInSlash outer) mid [] := seek_of_walk (walk_of_extends hextends hmid)
    rw [List.append_nil, hfind, seek_nil] at hsame
    obtain ⟨rfl, -⟩ := Prod.mk.inj (Except.ok.inj hsame)
    exact Or.inl (hrooted.directory_walk (hrooted.directory_origin outer) hmid)
  · -- the directory is in the rest, of which at least one name is left
    have hbetween : ArePlain between := fun segment h => hplain segment (by simp [hrest, h])
    rw [houter, seek_of_walk (walk_of_extends hextends hwalk)] at hfind
    rw [location_of_seek hbetween hfind, hrest, names_append]
    have hmem : name ∈ names (Disk.segments more) :=
      List.mem_filter.mpr ⟨hname, by simpa using hhere⟩
    exact Or.inr (by simp [List.ne_nil_of_mem hmem])

/-- **Nothing is found at a firm path as long as only directories are made that the path goes on
behind.** -/
theorem Firm.find_eq_notFound (hfirm : before.Firm path) (hrooted : before.Rooted)
    (hextends : Extends before after)
    (hmade : ∀ place, before.node? place = none → after.node? place = none ∨
      after.node? place = some .directory ∧ after.Passes path place)
    (hfind : before.find path = .error .notFound) : after.find path = .error .notFound := by
  by_cases hpath : IsPath path
  · obtain ⟨front, rest, inner, hsegments, hwalk, hplain⟩ := hfirm
    rw [find_eq_seek hpath, hsegments, seek_of_walk hwalk] at hfind
    have hlacks := lacks_seek hrooted hextends
      (fun place hnone => (hmade place hnone).imp_right And.left) hplain hfind
    rw [find_eq_seek hpath, hextends.origin, hsegments,
      seek_of_walk (walk_of_extends hextends hwalk)]
    rcases hlacks with hstill | ⟨-, hnone, hnew⟩
    · exact hstill
    · rcases hmade _ hnone with hstill | ⟨-, hpasses⟩
      · rw [hnew] at hstill
        exact absurd hstill (by simp)
      · rcases hpasses.cases hpath hrooted hextends hsegments hwalk hplain with hthere | hne
        · rw [hnone] at hthere
          exact absurd hthere (by simp)
        · exact absurd rfl hne
  · obtain ⟨refusal, hrefused, hempty⟩ := find_of_not_isPath hpath before
    rw [hrefused] at hfind
    rw [hempty (Except.error.inj hfind)]
    rfl

end ServiceWatch.Disk
