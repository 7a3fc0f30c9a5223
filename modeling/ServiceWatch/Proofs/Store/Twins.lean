import ServiceWatch.Proofs.Disk.Differ
import ServiceWatch.Proofs.Store.Save

/-!
# A save does not look at the file that it replaces

Two disks that are the same but for the file at the path are the same to a save: it never asks for
that file, it writes beside it, and the move into its place works whatever was there.  So a save
comes to the same outcome on both (`Twins.save`), and when it was published nothing is left of the
difference (`Twins.same_of_read`).

## Strategy

What a save may request was shown for all surroundings at once (`save_keeps`).  It remains to match
the replies, request by request: the directories around the file are there, as the path leads to a
file, and the draft is beside the location in which the disks differ.
-/

namespace ServiceWatch.Store

open Disk (Action Allows Beside Corresponds Differ Names Performs)

variable {path : String} {process : ℕ} {location : Location} {left right : Option Node}
  {first second next : Disk} {bytes : List UInt8} {action : Action} {reply : action.Reply}

/-- The disks differ in the file at the path only. -/
structure Twins (path : String) (location : Location) (left right : Option Node)
    (first second : Disk) : Prop where
  differ : Differ location left right first second
  names : first.Names path location

theorem Twins.symm (htwins : Twins path location left right first second) :
    Twins path location right left second first :=
  ⟨htwins.differ.symm, htwins.names.extends htwins.differ.extends⟩

/-- The draft is beside the location. -/
theorem Twins.beside (htwins : Twins path location left right first second) (process : ℕ) :
    Beside location (draftPath path process) first second := by
  obtain ⟨last, hend, hlast, hhere, hup⟩ := htwins.names.getLast?
  refine htwins.differ.beside_withName htwins.names (slash_notMem_draftName path process)
    (draftName_ne_of_short (by decide) path process)
    (draftName_ne_of_short (by decide) path process)
    (draftName_ne_of_short (by decide) path process) ?_
  rw [hend, ne_eq, Option.some_inj]
  exact (draftName_ne hlast hhere hup process).symm

/-- The directories around a file are there. -/
theorem find_of_mem_enclosing {directory : String} (hnames : first.Names path location)
    (hdirectory : directory ∈ enclosing path) :
    ∃ inner, first.find directory = .ok (inner, .directory) := by
  obtain ⟨hne, more, rfl, name, hname, -⟩ := exists_of_mem_enclosing hdirectory
  exact hnames.find_front hne (List.ne_nil_of_mem hname)

/-- No directory is made on either disk, since it is there. -/
theorem Twins.makeDirectory {directory : String}
    (htwins : Twins path location left right first second)
    (hdirectory : directory ∈ enclosing path) :
    Corresponds (Differ location left right) (first.makeDirectory directory)
      (second.makeDirectory directory) := by
  obtain ⟨inner, hfirst⟩ := find_of_mem_enclosing htwins.names hdirectory
  obtain ⟨outer, hsecond⟩ := find_of_mem_enclosing htwins.symm.names hdirectory
  rw [Disk.makeDirectory_of_find hfirst, Disk.makeDirectory_of_find hsecond]
  exact .refused _

theorem Twins.isDirectory_eq {directory : String}
    (htwins : Twins path location left right first second)
    (hdirectory : directory ∈ enclosing path) :
    second.isDirectory directory = first.isDirectory directory := by
  obtain ⟨inner, hfirst⟩ := find_of_mem_enclosing htwins.names hdirectory
  obtain ⟨outer, hsecond⟩ := find_of_mem_enclosing htwins.symm.names hdirectory
  rw [Disk.isDirectory_of_find hfirst, Disk.isDirectory_of_find hsecond]

/-! ### Replies -/

/-- What may settle on one disk may settle on the other. -/
theorem exists_maySettle {outcome other : Except SystemError Disk}
    {reply : Except SystemError Unit}
    (hcorresponds : Corresponds (Differ location left right) outcome other)
    (hdiffer : Differ location left right first second)
    (hsettle : Disk.MaySettle first outcome reply next) :
    ∃ last, Disk.MaySettle second other reply last ∧ Differ location left right next last := by
  cases reply with
  | error refusal =>
      obtain rfl : next = first := hsettle
      exact ⟨second, rfl, hdiffer⟩
  | ok done =>
      obtain rfl : outcome = .ok next := hsettle
      obtain ⟨hrelated⟩ := hcorresponds
      exact ⟨_, rfl, hrelated⟩

/-- What settles on one disk settles on the other. -/
theorem exists_settle {outcome other : Except SystemError Disk} {reply : Except SystemError Unit}
    (hcorresponds : Corresponds (Differ location left right) outcome other)
    (hdiffer : Differ location left right first second)
    (hsettle : first.settle outcome = (reply, next)) :
    ∃ last, second.settle other = (reply, last) ∧ Differ location left right next last := by
  cases hcorresponds with
  | done hrelated =>
      obtain ⟨rfl, rfl⟩ := Prod.mk.inj hsettle
      exact ⟨_, rfl, hrelated⟩
  | refused refusal =>
      obtain ⟨rfl, rfl⟩ := Prod.mk.inj hsettle
      exact ⟨second, rfl, hdiffer⟩

/-- A behaviour that replies alike on disks that differ in the file at the path, as long as it is
asked what a save asks. -/
def IsMirrored (allows : Plan.Behaviour Disk.files Disk) (path draft : String)
    (bytes : List UInt8) : Prop :=
  ∀ location left right first second action reply next,
    Twins path location left right first second → Asks path draft bytes first action →
      allows first action reply next →
        ∃ last, allows second action reply last ∧ Twins path location left right next last

/-- The path leads to the location still, whatever is replied, since no directory goes away. -/
theorem isMirrored_of_differ {allows : Plan.Behaviour Disk.files Disk} {draft : String}
    (hallows : ∀ disk action reply next, allows disk action reply next →
      Allows disk action reply next)
    (hmatches : ∀ location left right first second action reply next,
      Twins path location left right first second → Asks path draft bytes first action →
        allows first action reply next →
          ∃ last, allows second action reply last ∧ Differ location left right next last) :
    IsMirrored allows path draft bytes := by
  intro location left right first second action reply next htwins hasks hreply
  obtain ⟨last, hlast, hdiffer⟩ := hmatches _ _ _ _ _ _ _ _ htwins hasks hreply
  have hgrows := Allows.grows (hallows _ _ _ _ hreply)
  exact ⟨last, hlast, hdiffer, htwins.names.extends hgrows.keeps⟩

theorem isMirrored_allows (path : String) (process : ℕ) (bytes : List UInt8) :
    IsMirrored Allows path (draftPath path process) bytes := by
  apply isMirrored_of_differ fun _ _ _ _ => id
  intro location left right first second action reply next htwins hasks hreply
  have hbeside := htwins.beside process
  rcases hasks with hprepares | ⟨rfl, -⟩
  · cases action with
    | read target => exact absurd hprepares id
    | rename source target => exact absurd hprepares id
    | makeDirectory directory =>
        exact exists_maySettle (htwins.makeDirectory hprepares) htwins.differ hreply
    | isDirectory directory =>
        obtain ⟨hthere, rfl⟩ := hreply
        exact ⟨second, ⟨fun hreply => (htwins.isDirectory_eq hprepares).trans (hthere hreply), rfl⟩,
          htwins.differ⟩
    | create target =>
        obtain rfl : target = draftPath path process := hprepares
        exact exists_maySettle (htwins.differ.create hbeside) htwins.differ hreply
    | append target written =>
        obtain rfl : target = draftPath path process := hprepares
        cases reply with
        | error refusal =>
            obtain rfl : next = first := hreply
            exact ⟨second, rfl, htwins.differ⟩
        | ok count =>
            obtain ⟨hcount, hdone⟩ := hreply
            have hcorresponds := htwins.differ.append hbeside (written.take count)
            rw [hdone] at hcorresponds
            generalize hother : second.append _ _ = other at hcorresponds
            obtain ⟨hrelated⟩ := hcorresponds
            exact ⟨_, ⟨hcount, hother⟩, hrelated⟩
    | sync target =>
        obtain rfl : next = first := hreply
        exact ⟨second, rfl, htwins.differ⟩
    | remove target =>
        obtain rfl : target = draftPath path process := hprepares
        obtain ⟨hsettle, htruth⟩ := hreply
        have hcorresponds := htwins.differ.remove hbeside
        obtain ⟨last, hlast, hdiffer⟩ := exists_maySettle hcorresponds htwins.differ hsettle
        refine ⟨last, ⟨hlast, fun habsent => ?_⟩, hdiffer⟩
        rw [htruth habsent] at hcorresponds
        generalize second.remove _ = other at hcorresponds
        cases hcorresponds
        rfl
  · exact exists_maySettle (htwins.differ.rename hbeside htwins.names) htwins.differ hreply

theorem isMirrored_performs (path : String) (process : ℕ) (bytes : List UInt8) :
    IsMirrored Performs path (draftPath path process) bytes := by
  apply isMirrored_of_differ fun _ _ _ _ => Disk.allows_of_performs
  intro location left right first second action reply next htwins hasks hreply
  have hbeside := htwins.beside process
  rcases hasks with hprepares | ⟨rfl, -⟩
  · cases action with
    | read target => exact absurd hprepares id
    | rename source target => exact absurd hprepares id
    | makeDirectory directory =>
        exact exists_settle (htwins.makeDirectory hprepares) htwins.differ hreply
    | isDirectory directory =>
        obtain ⟨rfl, rfl⟩ := Prod.mk.inj hreply
        exact ⟨second, Prod.ext (htwins.isDirectory_eq hprepares) rfl, htwins.differ⟩
    | create target =>
        obtain rfl : target = draftPath path process := hprepares
        exact exists_settle (htwins.differ.create hbeside) htwins.differ hreply
    | append target written =>
        obtain rfl : target = draftPath path process := hprepares
        have hcorresponds := htwins.differ.append hbeside written
        unfold Performs at hreply ⊢
        simp only [Disk.perform] at hreply ⊢
        generalize first.append (draftPath path process) written = mine at hcorresponds hreply
        generalize second.append (draftPath path process) written = other at hcorresponds
        cases hcorresponds with
        | done hrelated =>
            obtain ⟨rfl, rfl⟩ := Prod.mk.inj hreply
            exact ⟨_, rfl, hrelated⟩
        | refused refusal =>
            obtain ⟨rfl, rfl⟩ := Prod.mk.inj hreply
            exact ⟨second, rfl, htwins.differ⟩
    | sync target =>
        obtain ⟨rfl, rfl⟩ := Prod.mk.inj hreply
        exact ⟨second, rfl, htwins.differ⟩
    | remove target =>
        obtain rfl : target = draftPath path process := hprepares
        exact exists_settle (htwins.differ.remove hbeside) htwins.differ hreply
  · exact exists_settle (htwins.differ.rename hbeside htwins.names) htwins.differ hreply

/-! ### Saving -/

/-- **A save comes to the same on both disks.** -/
theorem Twins.save {allows : Plan.Behaviour Disk.files Disk} {memory : Memory}
    {outcome : Except Fault Unit} {after : Disk}
    (htwins : Twins path location left right first second)
    (hmirrored : IsMirrored allows path (draftPath path process) (encode memory))
    (hallows : ∀ disk action reply next, allows disk action reply next →
      Allows disk action reply next)
    (hends : (save path process memory).Ends allows first outcome after) :
    ∃ last, (save path process memory).Ends allows second outcome last ∧
      Twins path location left right after last := by
  have hkeeps := (save_keeps (Surroundings.alone path (draftPath path process)) memory
    (Spares.refl _ _ first)).mono fun disk action reply next hreply =>
      Allows.mayFail (hallows disk action reply next hreply)
  exact hkeeps.mirrored (fun _ _ _ _ _ => hmirrored _ _ _ _ _ _ _ _) htwins hends

/-- Where one disk had no file at first, the disks are the same once that has one. -/
theorem Twins.same_of_read (htwins : Twins path location none right first second)
    (hread : first.read path = .ok bytes) (place : Location) :
    second.node? place = first.node? place := by
  by_cases hplace : place = location
  · subst hplace
    obtain ⟨other, hother, hfile⟩ := Disk.read_eq_ok_iff_fileAt?.mp hread
    obtain rfl := hother.unique htwins.names
    refine htwins.differ.here.resolve_right ?_
    rintro ⟨hnone, -⟩
    rw [Disk.fileAt?, hnone] at hfile
    exact absurd hfile (by simp)
  · exact htwins.differ.elsewhere place hplace

end ServiceWatch.Store
