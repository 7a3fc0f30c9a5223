import ServiceWatch.Proofs.Disk.Vacant

/-!
# Beside a file

A path that names a location has been followed through all of its directories, so every directory
in front of it is found (`Names.find_front`), and the path with another name in place of the last
one leads to the same directory (`Names.follow_withName`).  The text of that other path need not be
the same in front: its parent is cut without the dots at its end, and a dot is no step.
-/

namespace ServiceWatch.Disk

variable {disk : Disk} {path name : String} {location directory inner : Location}
  {segments : List String} {hasSlash : Bool}

/-! ### Steps -/

theorem names_segments (path : String) :
    names (Disk.segments path) = (Path.steps path.toList).map String.ofList := by
  unfold names Disk.segments Path.steps
  rw [List.filter_map, List.filter_filter]
  congr 1
  apply List.filter_congr
  intro segment _
  have hdot : String.ofList segment = "." ↔ segment = ['.'] := by
    rw [← String.toList_inj, String.toList_ofList]
    rfl
  simp [Path.isIdle, hdot, Bool.and_comm]

/-- Dots lead nowhere. -/
theorem walk_names (disk : Disk) (directory : Location) (segments : List String) :
    disk.walk directory (names segments) = disk.walk directory segments := by
  induction segments generalizing directory with
  | nil => rfl
  | cons segment rest ih =>
      by_cases hhere : segment = "."
      · rw [hhere, names_here, ih]
        rfl
      · have hnames : names (segment :: rest) = segment :: names rest := by simp [names, hhere]
        unfold walk at ih ⊢
        rw [hnames, List.foldlM_cons, List.foldlM_cons]
        exact bind_congr ih

theorem followSegments_of_walk (hwalk : disk.walk directory segments = .ok inner)
    (hhere : name ≠ ".") (hup : name ≠ "..") :
    disk.followSegments hasSlash directory (segments ++ [name]) =
      .ok (.entry inner name hasSlash) := by
  induction segments generalizing directory with
  | nil =>
      obtain rfl := Except.ok.inj hwalk
      exact followSegments_singleton.mpr ⟨hhere, hup, rfl, rfl, rfl⟩
  | cons segment rest ih =>
      obtain ⟨between, henter, hbetween⟩ := walk_cons.mp hwalk
      obtain ⟨next, others, hrest⟩ := List.exists_cons_of_ne_nil
        (List.append_ne_nil_of_right_ne_nil rest (List.cons_ne_nil name []))
      rw [List.cons_append, hrest]
      exact followSegments_cons.mpr ⟨between, henter, hrest ▸ ih hbetween⟩

/-! ### Beside a file -/

/-- The path with another name in place of the last one leads to a place beside the file. -/
theorem Names.follow_withName (hnames : disk.Names path location) (hslash : '/' ∉ name.toList)
    (hfull : name ≠ "") (hhere : name ≠ ".") (hup : name ≠ "..")
    (hpath : IsPath (Path.withName path name)) :
    disk.follow (Path.withName path name) =
      .ok (.entry location.dropLast name (endsInSlash (Path.withName path name))) := by
  obtain ⟨directory, last, hfollow, -, rfl⟩ := hnames
  obtain ⟨-, hsegments⟩ := follow_eq_ok_iff.mp hfollow
  obtain ⟨hlast, hlastHere, hlastUp⟩ := followSegments_entry hsegments
  obtain ⟨front, hfront, hwalk⟩ := exists_walk_of_entry hsegments
  have hname := Path.name?_of_getLast? hlast hlastHere hlastUp
  obtain ⟨outer, houter, hsteps, hhead⟩ := Path.exists_of_name? hname
  have hsibling : Path.withName path name = Path.append outer name := by
    simp only [Path.withName, hname, houter, Option.getD_some]
  -- both paths have the same steps in front of their last one
  have hsame : names (Disk.segments outer) = names front := by
    have hstep : names [last] = [last] := by simp [names, hlastHere]
    have hboth : names (Disk.segments path) = names (Disk.segments outer) ++ [last] := by
      rw [names_segments, names_segments, hsteps, List.map_append]
      simp
    rw [hfront, names_append, hstep] at hboth
    exact (List.append_cancel_right hboth).symm
  have horigin : disk.origin (Path.withName path name) = disk.origin path := by
    rw [hsibling]
    simp only [origin, Path.head?_append hslash outer, hhead]
  rw [List.dropLast_concat]
  refine follow_eq_ok_iff.mpr ⟨hpath, ?_⟩
  rw [horigin, hsibling, Path.segments_append hslash hfull]
  refine followSegments_of_walk ?_ hhere hup
  rw [← walk_names, hsame, walk_names]
  exact hwalk

/-- Every directory in front of a file is found. -/
theorem Names.find_front {front more : String} (hnames : disk.Names (front ++ "/" ++ more) location)
    (hfront : front ≠ "") (hmore : Disk.segments more ≠ []) :
    ∃ inner, disk.find front = .ok (inner, .directory) := by
  obtain ⟨directory, last, hfollow, -, -⟩ := hnames
  obtain ⟨hpath, hsegments⟩ := follow_eq_ok_iff.mp hfollow
  rw [origin_append hfront, Path.segments_append_slash] at hsegments
  obtain ⟨before, hbefore, hwalk⟩ := exists_walk_of_entry hsegments
  obtain ⟨between, final, hmore⟩ := (Disk.segments more).eq_nil_or_concat'.resolve_left hmore
  rw [hmore, ← List.append_assoc] at hbefore
  obtain ⟨rfl, -⟩ := List.append_inj' hbefore rfl
  obtain ⟨inner, hinner, -⟩ := walk_append.mp hwalk
  have hseek : disk.seek (endsInSlash front) (disk.origin front) (Disk.segments front ++ []) =
      disk.seek (endsInSlash front) inner [] := seek_of_walk hinner
  rw [List.append_nil, seek_nil] at hseek
  exact ⟨inner, (find_eq_seek (hpath.of_append hfront) disk).trans hseek⟩

end ServiceWatch.Disk
