import ServiceWatch.Proofs.Disk.Vacant
import ServiceWatch.Proofs.Store.Load
import ServiceWatch.Proofs.Store.Save

/-!
# What a save that fails leaves

A save that fails removes its draft, provided that the file system removes what it is asked to
remove.  It has then either made directories only, or the last that it did was to remove the draft
(`withdraws_of_save`), so no file is new, and the only new nodes are directories around the
file (`restores_of_save`).  Where the path is firm and there was nothing at it, there is nothing at
it still (`Restores.read_eq_notFound`).
-/

namespace ServiceWatch.Store

open Disk (Grows Names Unlinks)

variable {path draft whole place : String} {process : ℕ} {before middle after : Disk}
  {location : Location} {content bytes : List UInt8} {outcome : Except Fault Unit} {fault : Fault}
  {refusal : SystemError}

/-! ### Writing to the draft -/

/-- The disks are the same but for what is at the draft, where no directory was made. -/
structure Drafts (draft : String) (before after : Disk) : Prop where
  grows : Grows before after
  node : ∀ location, after.node? location = before.node? location ∨
    after.Names draft location ∧ after.node? location ≠ some .directory

theorem Drafts.refl (draft : String) (disk : Disk) : Drafts draft disk disk :=
  ⟨Grows.refl disk, fun _ => Or.inl rfl⟩

theorem Drafts.trans (hfirst : Drafts draft before middle) (hsecond : Drafts draft middle after) :
    Drafts draft before after where
  grows := hfirst.grows.trans hsecond.grows
  node := by
    intro location
    rcases hsecond.node location with hsame | hdraft
    · rcases hfirst.node location with hsame' | ⟨hnames, hnode⟩
      · exact Or.inl (hsame.trans hsame')
      · exact Or.inr ⟨hnames.extends hsecond.grows.keeps, hsame ▸ hnode⟩
    · exact Or.inr hdraft

theorem drafts_put {isProgram : Bool} (hgrows : Grows before (before.put location
    (.file content isProgram))) (hnames : before.Names draft location) :
    Drafts draft before (before.put location (.file content isProgram)) := by
  refine ⟨hgrows, fun other => ?_⟩
  rw [Disk.node?_put hnames.ne_nil]
  by_cases hother : other = location
  · subst hother
    exact Or.inr ⟨hnames.extends hgrows.keeps, by simp⟩
  · exact Or.inl (if_neg hother)

theorem drafts_create (hdone : before.create draft = .ok after) : Drafts draft before after := by
  have hgrows := Disk.grows_create hdone
  obtain ⟨location, isProgram, hnames, -, rfl⟩ := Disk.create_eq_ok hdone
  exact drafts_put hgrows hnames

theorem drafts_append (hdone : before.append draft bytes = .ok after) :
    Drafts draft before after := by
  have hgrows := Disk.grows_append hdone
  obtain ⟨location, content, isProgram, hnames, -, rfl⟩ := Disk.append_eq_ok hdone
  exact drafts_put hgrows hnames

theorem drafts_remove (hdone : before.remove draft = .ok after) : Drafts draft before after := by
  have hgrows := Disk.grows_remove hdone
  obtain ⟨location, content, isProgram, hnames, -, rfl⟩ := Disk.remove_eq_ok hdone
  refine ⟨hgrows, fun other => ?_⟩
  rw [Disk.node?_drop hnames.ne_nil]
  by_cases hother : other = location
  · subst hother
    exact Or.inr ⟨hnames.extends hgrows.keeps, by simp⟩
  · exact Or.inl (if_neg hother)

/-- Nothing was touched but the draft, and there is no file at it any more. -/
structure Withdraws (draft : String) (before after : Disk) : Prop where
  drafts : Drafts draft before after
  absent : ∀ content, after.read draft ≠ .ok content

theorem Drafts.withdraws (hdrafts : Drafts draft before middle)
    (hwithdraws : Withdraws draft middle after) : Withdraws draft before after :=
  ⟨hdrafts.trans hwithdraws.drafts, hwithdraws.absent⟩

theorem withdraws_of_abandon
    (hends : (abandon draft place refusal).Ends Unlinks before outcome after) :
    Withdraws draft before after := by
  obtain ⟨reply, between, ⟨⟨hsettle, -⟩, hremoves⟩, -, rfl⟩ := hends
  cases reply with
  | ok done => exact ⟨drafts_remove hsettle, not_read_of_remove hsettle⟩
  | error refusal =>
      obtain rfl : after = before := hsettle
      refine ⟨Drafts.refl draft after, fun content hread => ?_⟩
      -- a file that could be read would have been removed
      obtain ⟨next, hremove⟩ := Disk.exists_remove_of_read hread
      exact absurd (hremoves next hremove) (by simp)

theorem withdraws_of_publish (hends : (publish path draft).Ends Unlinks before outcome after) :
    outcome = .ok () ∨ Withdraws draft before after := by
  obtain ⟨reply, between, hsettle, hrest⟩ := hends
  cases reply with
  | ok done => exact Or.inl hrest.1
  | error refusal =>
      obtain rfl : between = before := hsettle
      exact Or.inr (withdraws_of_abandon hrest)

theorem withdraws_of_write_nil {fuel : ℕ}
    (hends : (write path draft fuel []).Ends Unlinks before outcome after) :
    outcome = .ok () ∨ Withdraws draft before after := by
  unfold write at hends
  obtain ⟨reply, between, hsame, hrest⟩ := hends
  obtain rfl : between = before := hsame
  cases reply with
  | ok done => exact withdraws_of_publish hrest
  | error refusal => exact Or.inr (withdraws_of_abandon hrest)

theorem withdraws_of_write {fuel : ℕ} {left : List UInt8}
    (hends : (write path draft fuel left).Ends Unlinks before outcome after) :
    outcome = .ok () ∨ Withdraws draft before after := by
  induction fuel generalizing before left with
  | zero =>
      cases left with
      | nil => exact withdraws_of_write_nil hends
      | cons byte left => exact Or.inr (withdraws_of_abandon hends)
  | succ fuel ih =>
      cases left with
      | nil => exact withdraws_of_write_nil hends
      | cons byte left =>
          obtain ⟨reply, between, hreply, hrest⟩ := hends
          rcases reply with refusal | _ | count
          · obtain rfl : between = before := hreply
            exact Or.inr (withdraws_of_abandon hrest)
          · exact Or.inr ((drafts_append hreply.2).withdraws (withdraws_of_abandon hrest))
          · exact (ih hrest).imp_right (drafts_append hreply.2).withdraws

theorem withdraws_of_writeDraft
    (hends : (writeDraft path draft bytes).Ends Unlinks before outcome after) :
    outcome = .ok () ∨ Withdraws draft before after := by
  obtain ⟨reply, between, hsettle, hrest⟩ := hends
  cases reply with
  | ok done => exact (withdraws_of_write hrest).imp_right (drafts_create hsettle).withdraws
  | error refusal =>
      obtain rfl : between = before := hsettle
      exact Or.inr (withdraws_of_abandon hrest)

/-! ### Making the directories -/

section Directories

variable {next : FilePlan (Except Fault Unit)} {directories : List String}

/-- Only directories around the file were made, and then the plan was carried out or given up for
want of a directory in `whole`. -/
def Reaches (path whole : String) (next : FilePlan (Except Fault Unit)) (before : Disk)
    (outcome : Except Fault Unit) (after : Disk) : Prop :=
  ∃ middle, Spares path ∅ before middle ∧
    (next.Ends Unlinks middle outcome after ∨
      after = middle ∧ ∃ refusal, outcome = .error (.write whole refusal))

theorem Reaches.of_spares (hspares : Spares path ∅ before middle)
    (hreaches : Reaches path whole next middle outcome after) :
    Reaches path whole next before outcome after := by
  obtain ⟨last, hlast, hends⟩ := hreaches
  exact ⟨last, hspares.trans hlast, hends⟩

theorem reaches_of_failed (hends : (failed whole refusal).Ends Unlinks before outcome after) :
    Reaches path whole next before outcome after := by
  obtain ⟨rfl, rfl⟩ := hends
  exact ⟨after, Spares.refl path ∅ after, Or.inr ⟨rfl, refusal, rfl⟩⟩

theorem reaches_of_descend (hdirectories : directories ⊆ enclosing path)
    (hends : (descend whole next directories).Ends Unlinks before outcome after) :
    Reaches path whole next before outcome after := by
  induction directories generalizing before with
  | nil => exact ⟨before, Spares.refl path ∅ before, Or.inl hends⟩
  | cons directory rest ih =>
      obtain ⟨hdirectory, hrest⟩ := List.cons_subset.mp hdirectories
      obtain ⟨reply, between, hsettle, hnext⟩ := hends
      cases reply with
      | ok done => exact (ih hrest hnext).of_spares (spares_makeDirectory hdirectory hsettle)
      | error refusal =>
          obtain rfl : between = before := hsettle
          by_cases hthere : refusal = .alreadyExists
          · simp only [hthere, if_true] at hnext
            obtain ⟨answer, last, ⟨-, rfl⟩, hnext⟩ := hnext
            cases answer with
            | true => exact ih hrest hnext
            | false => exact reaches_of_failed hnext
          · simp only [hthere, if_false] at hnext
            exact reaches_of_failed hnext

theorem reaches_of_climb {behind : List String} (hbehind : behind ⊆ enclosing path)
    (hdirectories : directories ⊆ enclosing path)
    (hends : (climb whole next behind directories).Ends Unlinks before outcome after) :
    Reaches path whole next before outcome after := by
  induction directories generalizing before behind with
  | nil => exact reaches_of_descend hbehind hends
  | cons directory outer ih =>
      obtain ⟨hdirectory, houter⟩ := List.cons_subset.mp hdirectories
      obtain ⟨reply, between, hsettle, hnext⟩ := hends
      cases reply with
      | ok done =>
          exact (reaches_of_descend hbehind hnext).of_spares
            (spares_makeDirectory hdirectory hsettle)
      | error refusal =>
          obtain rfl : between = before := hsettle
          by_cases hmissing : refusal = .notFound
          · simp only [hmissing, if_true] at hnext
            exact ih (List.cons_subset.mpr ⟨hdirectory, hbehind⟩) houter hnext
          · simp only [hmissing, if_false] at hnext
            by_cases hthere : refusal = .alreadyExists
            · simp only [hthere, if_true] at hnext
              obtain ⟨answer, last, ⟨-, rfl⟩, hnext⟩ := hnext
              cases answer with
              | true => exact reaches_of_descend hbehind hnext
              | false => exact reaches_of_failed hnext
            · simp only [hthere, if_false] at hnext
              exact reaches_of_failed hnext

end Directories

/-- A save that fails could not make a directory, or it withdrew its draft. -/
theorem withdraws_of_save {memory : Memory}
    (hends : (save path process memory).Ends Unlinks before (.error fault) after) :
    ∃ middle, Spares path ∅ before middle ∧
      (Withdraws (draftPath path process) middle after ∨
        after = middle ∧ ∃ directory refusal, Path.parent? path = some directory ∧
          fault = .write directory refusal) := by
  have hwriting {middle : Disk} (hwritten : (writeDraft path (draftPath path process)
      (encode memory)).Ends Unlinks middle (.error fault) after) :
      Withdraws (draftPath path process) middle after :=
    (withdraws_of_writeDraft hwritten).resolve_left (by simp)
  unfold save at hends
  cases hparent : Path.parent? path with
  | none =>
      rw [hparent] at hends
      exact ⟨before, Spares.refl path ∅ before, Or.inl (hwriting hends)⟩
  | some directory =>
      rw [hparent] at hends
      obtain ⟨middle, hspares, hwritten | ⟨hsame, refusal, hfault⟩⟩ :=
        reaches_of_climb (List.nil_subset _) (climb_subset_enclosing hparent) hends
      · exact ⟨middle, hspares, Or.inl (hwriting hwritten)⟩
      · exact ⟨middle, hspares, Or.inr ⟨hsame, directory, refusal, rfl, Except.error.inj hfault⟩⟩

/-! ### What a save that fails leaves -/

/-- No file is new, and the only new nodes are directories around the file. -/
structure Restores (path : String) (before after : Disk) : Prop where
  grows : Grows before after
  file : ∀ location content, after.fileAt? location = some content →
    before.fileAt? location = some content
  made : ∀ location, before.node? location = none →
    after.node? location = none ∨
      after.node? location = some .directory ∧ Encloses after path location

theorem Spares.restores (hspares : Spares path ∅ before after) : Restores path before after where
  grows := hspares.grows
  file := by
    intro location content hfile
    rcases hspares.node location with ⟨draft, hdraft, -⟩ | hsame | ⟨-, hmade, -⟩
    · exact absurd hdraft (Set.notMem_empty draft)
    · rwa [Disk.fileAt?, hsame] at hfile
    · rw [Disk.fileAt?, hmade] at hfile
      exact absurd hfile (by simp)
  made := by
    intro location hnone
    rcases hspares.node location with ⟨draft, hdraft, -⟩ | hsame | ⟨-, hmade⟩
    · exact absurd hdraft (Set.notMem_empty draft)
    · exact Or.inl (hsame.trans hnone)
    · exact Or.inr hmade

/-- At the draft there is nothing that was not there before. -/
theorem Withdraws.node (hwithdraws : Withdraws draft before after) (location : Location) :
    after.node? location = before.node? location ∨
      after.Names draft location ∧ after.node? location = none := by
  rcases hwithdraws.drafts.node location with hsame | ⟨hnames, hnode⟩
  · exact Or.inl hsame
  · rcases hafter : after.node? location with _ | _ | ⟨content, isProgram⟩
    · exact Or.inr ⟨hnames, rfl⟩
    · exact absurd hafter hnode
    · have hread := Disk.read_eq_ok_iff.mpr ⟨location, isProgram, hnames, hafter⟩
      exact absurd hread (hwithdraws.absent content)

theorem Restores.withdraws (hrestores : Restores path before middle)
    (hwithdraws : Withdraws draft middle after) : Restores path before after where
  grows := hrestores.grows.trans hwithdraws.drafts.grows
  file := by
    intro location content hfile
    rcases hwithdraws.node location with hsame | ⟨-, hnone⟩
    · apply hrestores.file
      rwa [Disk.fileAt?, hsame] at hfile
    · rw [Disk.fileAt?, hnone] at hfile
      exact absurd hfile (by simp)
  made := by
    intro location hbefore
    rcases hwithdraws.node location with hsame | ⟨-, hnone⟩
    · rw [hsame]
      exact (hrestores.made location hbefore).imp_right fun hmade =>
        ⟨hmade.1, hmade.2.extends hwithdraws.drafts.grows.keeps⟩
    · exact Or.inl hnone

/-- **A save that fails leaves no file behind.** -/
theorem restores_of_save {memory : Memory}
    (hends : (save path process memory).Ends Unlinks before (.error fault) after) :
    Restores path before after := by
  obtain ⟨middle, hspares, hwithdraws | ⟨rfl, -⟩⟩ := withdraws_of_save hends
  · exact hspares.restores.withdraws hwithdraws
  · exact hspares.restores

/-- The path goes on behind the directories around the file. -/
theorem Encloses.passes (hencloses : Encloses after path location) : after.Passes path location := by
  obtain ⟨directory, hdirectory, hfind⟩ := hencloses
  obtain ⟨hne, more, hpath, hname⟩ := exists_of_mem_enclosing hdirectory
  exact ⟨directory, more, hne, hpath, hname, hfind⟩

theorem Restores.read_eq_notFound (hrestores : Restores path before after)
    (hfirm : before.Firm path) (hrooted : before.Rooted)
    (hread : before.read path = .error .notFound) : after.read path = .error .notFound := by
  rw [Disk.read_eq_notFound_iff] at hread ⊢
  refine hfirm.find_eq_notFound hrooted hrestores.grows.keeps ?_ hread
  intro place hnone
  exact (hrestores.made place hnone).imp_right fun hmade => ⟨hmade.1, hmade.2.passes⟩

end ServiceWatch.Store
