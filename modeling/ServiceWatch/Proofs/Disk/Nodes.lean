import Mathlib.Data.List.Induction
import ServiceWatch.Disk.Action
import ServiceWatch.Proofs.Basic

/-!
# What is at the locations of a disk

The view of a disk is `Disk.node?`, which tells what is at a location; this file says what `put`
and `drop` do to it.  A disk is *rooted* when every node stands in a directory, the working
directory included.  One disk *extends* another when it has every directory of the other: then
every path that could be followed leads to the same place as before (`follow_of_extends`).
-/

namespace ServiceWatch.Disk

variable {disk later : Disk} {location other : Location} {node : Node} {path : String}

/-! ### Putting and dropping -/

theorem lookup_putNode (location : Location) (node : Node) (nodes : List (Location × Node))
    (other : Location) :
    (putNode location node nodes).lookup other =
      if other = location then some node else nodes.lookup other :=
  lookup_of_put (putNode location node) rfl (fun _ _ _ => rfl) nodes other

theorem node?_put (hlocation : location ≠ []) (disk : Disk) (node : Node) (other : Location) :
    (disk.put location node).node? other =
      if other = location then some node else disk.node? other := by
  unfold node? put
  by_cases hroot : other = []
  · have hne : ¬ ([] : Location) = location := fun h => hlocation h.symm
    simp [hroot, hne]
  · simp [hroot, lookup_putNode]

theorem node?_drop (hlocation : location ≠ []) (disk : Disk) (other : Location) :
    (disk.drop location).node? other =
      if other = location then none else disk.node? other := by
  unfold node? drop
  by_cases hroot : other = []
  · have hne : ¬ ([] : Location) = location := fun h => hlocation h.symm
    simp [hroot, hne]
  · simpa [hroot] using lookup_filter_ne disk.nodes other location

@[simp] theorem node?_root (disk : Disk) : disk.node? [] = some .directory := by simp [node?]

/-! ### Rooted disks -/

/-- Every node stands in a directory, and the working directory is one. -/
structure Rooted (disk : Disk) : Prop where
  working : disk.node? disk.workingDirectory = some .directory
  parent : ∀ location node, disk.node? location = some node →
    disk.node? location.dropLast = some .directory

/-- It is enough to look at the nodes that are there. -/
theorem rooted_iff :
    disk.Rooted ↔ disk.node? disk.workingDirectory = some .directory ∧
      ∀ entry ∈ disk.nodes, disk.node? entry.1.dropLast = some .directory := by
  constructor
  · intro hrooted
    refine ⟨hrooted.working, ?_⟩
    intro entry hentry
    by_cases hroot : entry.1 = []
    · simp [hroot]
    · obtain ⟨node, hnode⟩ := Option.isSome_iff_exists.mp
        ((isSome_lookup_iff disk.nodes).mpr ⟨entry.2, hentry⟩)
      apply hrooted.parent entry.1 node
      rw [node?, if_neg hroot, hnode]
  · rintro ⟨hworking, hentries⟩
    refine ⟨hworking, ?_⟩
    intro location node hnode
    by_cases hroot : location = []
    · simp [hroot]
    · rw [node?, if_neg hroot] at hnode
      obtain ⟨found, hfound⟩ := (isSome_lookup_iff disk.nodes).mp (by rw [hnode]; rfl)
      exact hentries (location, found) hfound

instance (disk : Disk) : Decidable disk.Rooted :=
  decidable_of_iff _ rooted_iff.symm

/-- Everything on the way to a node is a directory. -/
theorem Rooted.directory_of_append (hrooted : disk.Rooted) {rest : List String}
    (hnode : disk.node? (location ++ rest) = some node) (hrest : rest ≠ []) :
    disk.node? location = some .directory := by
  -- from the node up to the location, one directory at a time
  induction rest using List.reverseRec generalizing node with
  | nil => exact absurd rfl hrest
  | append_singleton front last ih =>
      have hparent : disk.node? (location ++ front) = some .directory := by
        have h := hrooted.parent _ _ hnode
        rwa [← List.append_assoc, List.dropLast_concat] at h
      by_cases hfront : front = []
      · simpa [hfront] using hparent
      · exact ih hparent hfront

/-- Where there is nothing, there is nothing further on. -/
theorem Rooted.node?_append_eq_none (hrooted : disk.Rooted) (hnone : disk.node? location = none)
    (rest : List String) : disk.node? (location ++ rest) = none := by
  by_cases hrest : rest = []
  · rw [hrest, List.append_nil]
    exact hnone
  · by_contra hthere
    obtain ⟨node, hnode⟩ := Option.ne_none_iff_exists'.mp hthere
    rw [hrooted.directory_of_append hnode hrest] at hnone
    exact absurd hnone (by simp)

/-- The later disk has every directory of the other, and starts relative paths at the same one. -/
structure Extends (disk later : Disk) : Prop where
  workingDirectory : later.workingDirectory = disk.workingDirectory
  directory : ∀ location, disk.node? location = some .directory →
    later.node? location = some .directory

theorem Extends.refl (disk : Disk) : Extends disk disk := ⟨rfl, fun _ h => h⟩

theorem Extends.trans {middle : Disk} (hfirst : Extends disk middle)
    (hsecond : Extends middle later) : Extends disk later :=
  ⟨hsecond.workingDirectory.trans hfirst.workingDirectory,
    fun location h => hsecond.directory location (hfirst.directory location h)⟩

/-- Putting a node where there is no directory. -/
theorem Extends.put (hlocation : location ≠ []) (hnode : disk.node? location ≠ some .directory)
    (node : Node) : Extends disk (disk.put location node) where
  workingDirectory := rfl
  directory := by
    intro other hother
    have hne : other ≠ location := by
      rintro rfl
      exact hnode hother
    rw [node?_put hlocation, if_neg hne]
    exact hother

theorem Extends.drop (hlocation : location ≠ []) (hnode : disk.node? location ≠ some .directory) :
    Extends disk (disk.drop location) where
  workingDirectory := rfl
  directory := by
    intro other hother
    have hne : other ≠ location := by
      rintro rfl
      exact hnode hother
    rw [node?_drop hlocation, if_neg hne]
    exact hother

/-- Putting a node into a directory, where there is none itself. -/
theorem Rooted.put (hrooted : disk.Rooted) (hlocation : location ≠ [])
    (hnode : disk.node? location ≠ some .directory)
    (hparent : disk.node? location.dropLast = some .directory) (node : Node) :
    (disk.put location node).Rooted where
  working := (Extends.put hlocation hnode node).directory _ hrooted.working
  parent := by
    intro other old hother
    apply (Extends.put hlocation hnode node).directory
    rw [node?_put hlocation] at hother
    split at hother
    next heq => rw [heq]; exact hparent
    next => exact hrooted.parent _ _ hother

theorem Rooted.drop (hrooted : disk.Rooted) (hlocation : location ≠ [])
    (hnode : disk.node? location ≠ some .directory) : (disk.drop location).Rooted where
  working := (Extends.drop hlocation hnode).directory _ hrooted.working
  parent := by
    intro other old hother
    apply (Extends.drop hlocation hnode).directory
    rw [node?_drop hlocation] at hother
    split at hother
    next => simp at hother
    next => exact hrooted.parent _ _ hother

end ServiceWatch.Disk
