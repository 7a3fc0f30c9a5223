import ServiceWatch.Proofs.Interference
import ServiceWatch.Proofs.Store.Draft

/-!
# What saving does to the files

A save writes its document to a draft beside the file and moves the draft into place.  Whatever is
refused on the way, the disk then differs from the disk before in new directories around the file
and in the draft alone (`Spares`), and a save that succeeds differs from such a disk by the move of
a draft that holds the whole document (`Published`).

## Strategy

All that a save needs of its surroundings is that they leave its draft alone, so its steps are
followed once for all `Surroundings` that do (`save_keeps`): every request prepares the draft, or
moves a draft with the whole document into place (`Asks`).  A save that is alone is the case in
which nothing happens between two steps (`save_ends`).
-/

namespace ServiceWatch.Store

open Disk (Action Allows Apart MayFail Names)

variable {origin before after : Disk} {path draft whole : String} {process : ℕ}
  {drafts : Set String} {bytes : List UInt8}

/-! ### What a save requests -/

/-- Requests that concern the directories around the file and the draft. -/
def Prepares (path draft : String) : Action → Prop
  | .makeDirectory directory | .isDirectory directory => directory ∈ enclosing path
  | .create target | .append target _ | .sync target | .remove target => target = draft
  | .read _ | .rename .. => False

/-- What a save of these bytes may request: it prepares the draft, or it moves a draft with all of
the bytes into place. -/
def Asks (path draft : String) (bytes : List UInt8) (disk : Disk) (action : Action) : Prop :=
  Prepares path draft action ∨ action = .rename draft path ∧ disk.read draft = .ok bytes

theorem spares_put {location : Location} {node : Node}
    (hgrows : Disk.Grows before (before.put location node)) (hnames : before.Names draft location) :
    Spares path {draft} before (before.put location node) := by
  refine ⟨hgrows, ?_⟩
  intro place
  by_cases hplace : place = location
  · exact Or.inl ⟨draft, rfl, hplace ▸ hnames.extends hgrows.keeps⟩
  · refine Or.inr (Or.inl ?_)
    rw [Disk.node?_put hnames.ne_nil, if_neg hplace]

theorem spares_makeDirectory {directory : String} (hdirectory : directory ∈ enclosing path)
    (hdone : before.makeDirectory directory = .ok after) : Spares path drafts before after := by
  refine ⟨Disk.grows_makeDirectory hdone, ?_⟩
  obtain ⟨location, hne, hnone, rfl, hfind⟩ := Disk.find_of_makeDirectory hdone
  intro place
  apply Or.inr
  rw [Disk.node?_put hne]
  by_cases hplace : place = location
  · rw [if_pos hplace]
    exact Or.inr ⟨hplace ▸ hnone, rfl, directory, hdirectory, hplace ▸ hfind⟩
  · exact Or.inl (if_neg hplace)

theorem spares_remove (hdone : before.remove draft = .ok after) :
    Spares path {draft} before after := by
  have hgrows := Disk.grows_remove hdone
  refine ⟨hgrows, ?_⟩
  intro place
  obtain ⟨location, content, isProgram, hnames, -, rfl⟩ := Disk.remove_eq_ok hdone
  by_cases hplace : place = location
  · exact Or.inl ⟨draft, rfl, hplace ▸ hnames.extends hgrows.keeps⟩
  · refine Or.inr (Or.inl ?_)
    rw [Disk.node?_drop hnames.ne_nil, if_neg hplace]

/-- Whatever is replied to what prepares the draft, the rest of the disk is spared. -/
theorem spares_of_prepares {action : Action} {reply : action.Reply}
    (hprepares : Prepares path draft action) (hreply : MayFail before action reply after) :
    Spares path {draft} before after := by
  have hrefl := Spares.refl path {draft} before
  cases action with
  | read target => exact absurd hprepares id
  | rename source target => exact absurd hprepares id
  | makeDirectory directory =>
      exact Disk.MaySettle.related (Spares path {draft}) hreply hrefl
        (spares_makeDirectory hprepares)
  | isDirectory directory => exact hreply.2 ▸ hrefl
  | sync target =>
      obtain rfl : after = before := hreply
      exact hrefl
  | create target =>
      obtain rfl : target = draft := hprepares
      refine Disk.MaySettle.related (Spares path {target}) hreply hrefl fun hdone => ?_
      have hgrows := Disk.grows_create hdone
      obtain ⟨location, isProgram, hnames, -, rfl⟩ := Disk.create_eq_ok hdone
      exact spares_put hgrows hnames
  | append target written =>
      obtain rfl : target = draft := hprepares
      cases reply with
      | ok count =>
          have hgrows := Disk.grows_append hreply.2
          obtain ⟨location, content, isProgram, hnames, -, rfl⟩ := Disk.append_eq_ok hreply.2
          exact spares_put hgrows hnames
      | error refusal =>
          obtain rfl : after = before := hreply
          exact hrefl
  | remove target =>
      obtain rfl : target = draft := hprepares
      exact Disk.MaySettle.related (Spares path {target}) hreply.1 hrefl spares_remove

/-- The draft held these bytes and was moved to the path. -/
structure Publishes (path draft : String) (bytes : List UInt8) (before after : Disk) : Prop where
  held : before.read draft = .ok bytes
  moved : before.rename draft path = .ok after

/-- The draft is gone, and the bytes are at another location, that of the path. -/
theorem Publishes.node (hpublishes : Publishes path draft bytes before after)
    (hapart : Apart path draft) :
    ∃ old new isProgram, after.Names draft old ∧ after.Names path new ∧ old ≠ new ∧
      ∀ location, after.node? location =
        if location = new then some (.file bytes isProgram)
        else if location = old then none else before.node? location := by
  have hkeeps := (Disk.grows_rename hpublishes.moved).keeps
  obtain ⟨old, new, moved, isProgram, hold, hnew, hmoved, -, hdone⟩ :=
    Disk.rename_eq_ok hpublishes.moved
  obtain ⟨place, isProgram', hplace, hbytes⟩ := Disk.read_eq_ok_iff.mp hpublishes.held
  obtain rfl := hplace.unique hold
  rw [hmoved] at hbytes
  obtain ⟨rfl, rfl⟩ : moved = bytes ∧ isProgram = isProgram' := by simpa using hbytes
  have hne : place ≠ new := by
    rintro rfl
    exact hapart before place hnew hold
  obtain ⟨heq, -⟩ | ⟨-, rfl⟩ := hdone
  · exact absurd heq hne
  · refine ⟨place, new, isProgram, hold.extends hkeeps, hnew.extends hkeeps, hne, ?_⟩
    intro location
    rw [Disk.node?_put hnew.ne_nil, Disk.node?_drop hold.ne_nil]

/-- The published bytes are what is read afterwards. -/
theorem Publishes.read (hpublishes : Publishes path draft bytes before after)
    (hapart : Apart path draft) : after.read path = .ok bytes := by
  obtain ⟨old, new, isProgram, -, hnames, -, hnode⟩ := hpublishes.node hapart
  exact Disk.read_eq_ok_iff.mpr ⟨new, isProgram, hnames, by rw [hnode, if_pos rfl]⟩

/-- Nothing is at the draft any more. -/
theorem Publishes.find_draft (hpublishes : Publishes path draft bytes before after)
    (hapart : Apart path draft) : after.find draft = .error .notFound := by
  obtain ⟨old, new, isProgram, hnames, -, hne, hnode⟩ := hpublishes.node hapart
  apply Disk.find_eq_notFound hnames
  rw [hnode, if_neg hne, if_pos rfl]

/-- Nothing changes but what is at the path and at the draft. -/
theorem Publishes.spares (hpublishes : Publishes path draft bytes before after)
    (hapart : Apart path draft) : Spares path {path, draft} before after := by
  refine ⟨Disk.grows_rename hpublishes.moved, ?_⟩
  obtain ⟨old, new, isProgram, hold, hnew, -, hnode⟩ := hpublishes.node hapart
  intro location
  by_cases hatNew : location = new
  · exact Or.inl ⟨path, by simp, hatNew ▸ hnew⟩
  · by_cases hatOld : location = old
    · exact Or.inl ⟨draft, by simp, hatOld ▸ hold⟩
    · exact Or.inr (Or.inl (by rw [hnode, if_neg hatNew, if_neg hatOld]))

/-! ### The surroundings of a save -/

/-- How the disk may change between two steps of a save (`rely`), and what may be said of the disk
now and the disk at the beginning as long as nothing is published (`drift`). -/
structure Surroundings (path draft : String) where
  rely : Disk → Disk → Prop
  drift : Disk → Disk → Prop
  refl : ∀ disk, rely disk disk
  trans : ∀ first second third, rely first second → rely second third → rely first third
  leaves : ∀ before after content, rely before after → before.read draft = .ok content →
    after.read draft = .ok content
  drift_rely : ∀ origin before after, drift origin before → rely before after → drift origin after
  drift_spares : ∀ origin before after, drift origin before → Spares path {draft} before after →
    drift origin after

namespace Surroundings

variable (around : Surroundings path draft)

/-- What a save of these bytes keeps in its surroundings. -/
def contract (bytes : List UInt8) : Plan.Contract Disk.files Disk where
  rely := around.rely
  asks := Asks path draft bytes
  refl := around.refl
  trans := around.trans

/-- What a save of these bytes comes to in its surroundings: they are published, or it fails. -/
def Saves (bytes : List UInt8) (origin : Disk) : Except Fault Unit → Disk → Prop
  | .ok (), after => ∃ middle next, around.drift origin middle ∧
      Publishes path draft bytes middle next ∧ around.rely next after
  | .error fault, after => around.drift origin after ∧ ∃ place refusal, fault = .write place refusal

variable {around} {between : Disk} {refusal : SystemError} {place : String} {done left : List UInt8}

theorem drift_of_reply {action : Action} {reply : action.Reply}
    (hdrift : around.drift origin before) (hrely : around.rely before between)
    (hreply : MayFail between action reply after) (hprepares : Prepares path draft action) :
    around.drift origin after :=
  around.drift_spares _ _ _ (around.drift_rely _ _ _ hdrift hrely)
    (spares_of_prepares hprepares hreply)

theorem failed_keeps (hdrift : around.drift origin before) :
    (failed place refusal).Keeps MayFail (around.contract bytes) before
      (around.Saves bytes origin) :=
  fun last hlast => ⟨around.drift_rely _ _ last hdrift hlast, place, refusal, rfl⟩

theorem abandon_keeps (hdrift : around.drift origin before) :
    (abandon draft place refusal).Keeps MayFail (around.contract bytes) before
      (around.Saves bytes origin) := by
  intro between hrely
  refine ⟨Or.inl rfl, ?_⟩
  intro reply after hreply
  exact failed_keeps (drift_of_reply hdrift hrely hreply rfl)

theorem publish_keeps (hdrift : around.drift origin before)
    (hdraft : before.read draft = .ok bytes) :
    (publish path draft).Keeps MayFail (around.contract bytes) before
      (around.Saves bytes origin) := by
  intro between hrely
  have hwhole := around.leaves _ _ _ hrely hdraft
  have hdrift' := around.drift_rely _ _ _ hdrift hrely
  refine ⟨Or.inr ⟨rfl, hwhole⟩, ?_⟩
  intro reply after hreply
  cases reply with
  | ok done =>
      intro last hlast
      exact ⟨between, after, hdrift', ⟨hwhole, hreply⟩, hlast⟩
  | error refusal =>
      obtain rfl : after = between := hreply
      exact abandon_keeps hdrift'

/-- With nothing left to write, the draft is published. -/
theorem write_nil_keeps {fuel : ℕ} (hdrift : around.drift origin before)
    (hdraft : before.read draft = .ok bytes) :
    (write path draft fuel []).Keeps MayFail (around.contract bytes) before
      (around.Saves bytes origin) := by
  unfold write
  intro between hrely
  refine ⟨Or.inl rfl, ?_⟩
  intro reply after hreply
  have hdrift' := drift_of_reply hdrift hrely hreply rfl
  obtain rfl : after = between := hreply
  cases reply with
  | ok synced => exact publish_keeps hdrift' (around.leaves _ _ _ hrely hdraft)
  | error refusal => exact abandon_keeps hdrift'

/-- The draft has what was written so far; with what is left it is the whole document.  What the
fuel leaves unwritten is never published. -/
theorem write_keeps {fuel : ℕ} (hdrift : around.drift origin before)
    (hdone : before.read draft = .ok done) (hbytes : done ++ left = bytes) :
    (write path draft fuel left).Keeps MayFail (around.contract bytes) before
      (around.Saves bytes origin) := by
  -- on the fuel: each piece moves from what is left to what the draft has
  induction fuel generalizing before done left with
  | zero =>
      cases left with
      | nil => exact write_nil_keeps hdrift (by rwa [← hbytes, List.append_nil])
      | cons byte left => exact abandon_keeps hdrift
  | succ fuel ih =>
      cases left with
      | nil => exact write_nil_keeps hdrift (by rwa [← hbytes, List.append_nil])
      | cons byte left =>
          intro between hrely
          refine ⟨Or.inl rfl, ?_⟩
          intro reply after hreply
          have hdrift' := drift_of_reply hdrift hrely hreply rfl
          -- the write was refused, put in nothing, or put in some bytes
          rcases reply with refusal | _ | count
          · exact abandon_keeps hdrift'
          · exact abandon_keeps hdrift'
          · have hlonger := Disk.read_of_append (around.leaves _ _ _ hrely hdone) hreply.2
            refine ih hdrift' hlonger ?_
            rw [List.append_assoc, List.take_append_drop, hbytes]

theorem writeDraft_keeps (hdrift : around.drift origin before) :
    (writeDraft path draft bytes).Keeps MayFail (around.contract bytes) before
      (around.Saves bytes origin) := by
  intro between hrely
  refine ⟨Or.inl rfl, ?_⟩
  intro reply after hreply
  have hdrift' := drift_of_reply hdrift hrely hreply rfl
  cases reply with
  | ok done => exact write_keeps hdrift' (Disk.read_of_create hreply) rfl
  | error refusal => exact abandon_keeps hdrift'

/-! ### The directories -/

variable {next : FilePlan (Except Fault Unit)}

/-- Goes on where there is a directory already. -/
theorem isDirectory_keeps {directory : String} {rest : FilePlan (Except Fault Unit)}
    (hdirectory : directory ∈ enclosing path) (hdrift : around.drift origin before)
    (hrest : ∀ state, around.drift origin state →
      rest.Keeps MayFail (around.contract bytes) state (around.Saves bytes origin)) :
    (Plan.ask (.isDirectory directory) fun
      | true => rest
      | false => failed whole refusal : FilePlan (Except Fault Unit)).Keeps MayFail
        (around.contract bytes) before (around.Saves bytes origin) := by
  intro between hrely
  refine ⟨Or.inl hdirectory, ?_⟩
  intro reply after hreply
  have hdrift' := drift_of_reply hdrift hrely hreply hdirectory
  cases reply with
  | true => exact hrest after hdrift'
  | false => exact failed_keeps hdrift'

theorem descend_keeps {directories : List String} (hdirectories : directories ⊆ enclosing path)
    (hdrift : around.drift origin before)
    (hnext : ∀ state, around.drift origin state →
      next.Keeps MayFail (around.contract bytes) state (around.Saves bytes origin)) :
    (descend whole next directories).Keeps MayFail (around.contract bytes) before
      (around.Saves bytes origin) := by
  induction directories generalizing before with
  | nil => exact hnext before hdrift
  | cons directory rest ih =>
      obtain ⟨hdirectory, hrest⟩ := List.cons_subset.mp hdirectories
      intro between hrely
      refine ⟨Or.inl hdirectory, ?_⟩
      intro reply after hreply
      have hdrift' := drift_of_reply hdrift hrely hreply hdirectory
      cases reply with
      | ok done => exact ih hrest hdrift'
      | error refusal =>
          by_cases hthere : refusal = .alreadyExists
          · simp only [hthere, if_true]
            exact isDirectory_keeps hdirectory hdrift' fun state hstate => ih hrest hstate
          · simp only [hthere, if_false]
            exact failed_keeps hdrift'

theorem climb_keeps {behind directories : List String} (hbehind : behind ⊆ enclosing path)
    (hdirectories : directories ⊆ enclosing path) (hdrift : around.drift origin before)
    (hnext : ∀ state, around.drift origin state →
      next.Keeps MayFail (around.contract bytes) state (around.Saves bytes origin)) :
    (climb whole next behind directories).Keeps MayFail (around.contract bytes) before
      (around.Saves bytes origin) := by
  induction directories generalizing before behind with
  | nil => exact descend_keeps hbehind hdrift hnext
  | cons directory outer ih =>
      obtain ⟨hdirectory, houter⟩ := List.cons_subset.mp hdirectories
      intro between hrely
      refine ⟨Or.inl hdirectory, ?_⟩
      intro reply after hreply
      have hdrift' := drift_of_reply hdrift hrely hreply hdirectory
      cases reply with
      | ok done => exact descend_keeps hbehind hdrift' hnext
      | error refusal =>
          by_cases hmissing : refusal = .notFound
          · simp only [hmissing, if_true]
            exact ih (List.cons_subset.mpr ⟨hdirectory, hbehind⟩) houter hdrift'
          · simp only [hmissing, if_false]
            by_cases hthere : refusal = .alreadyExists
            · simp only [hthere, if_true]
              exact isDirectory_keeps hdirectory hdrift' fun state hstate =>
                descend_keeps hbehind hstate hnext
            · simp only [hthere, if_false]
              exact failed_keeps hdrift'

end Surroundings

/-! ### The whole save -/

/-- **In any surroundings that leave its draft alone, a save publishes the whole document or
nothing**, and requests nothing but what prepares that. -/
theorem save_keeps (around : Surroundings path (draftPath path process)) (memory : Memory)
    (hdrift : around.drift origin before) :
    (save path process memory).Keeps MayFail (around.contract (encode memory)) before
      (around.Saves (encode memory) origin) := by
  unfold save
  cases hparent : Path.parent? path with
  | none => exact Surroundings.writeDraft_keeps hdrift
  | some directory =>
      exact Surroundings.climb_keeps (List.nil_subset _) (climb_subset_enclosing hparent) hdrift
        fun state hstate => Surroundings.writeDraft_keeps hstate

/-- The surroundings of a save that is alone. -/
def Surroundings.alone (path draft : String) : Surroundings path draft where
  rely := Eq
  drift := Spares path {draft}
  refl := fun _ => rfl
  trans := fun _ _ _ => Eq.trans
  leaves := fun _ _ _ hsame hread => hsame ▸ hread
  drift_rely := fun _ _ _ hdrift hsame => hsame ▸ hdrift
  drift_spares := fun _ _ _ => Spares.trans

/-- A disk that differs from the first in a draft was changed by moving the draft, which held these
bytes, to the path. -/
def Published (path draft : String) (bytes : List UInt8) (before after : Disk) : Prop :=
  ∃ middle, Spares path {draft} before middle ∧ Publishes path draft bytes middle after

/-- **Saving publishes the whole document or touches nothing but its draft.** -/
theorem save_ends {memory : Memory} {outcome : Except Fault Unit}
    (hends : (save path process memory).Ends MayFail before outcome after) :
    match outcome with
    | .ok () => Published path (draftPath path process) (encode memory) before after
    | .error fault => Spares path {draftPath path process} before after ∧
        ∃ place refusal, fault = .write place refusal := by
  have hsaves := (save_keeps (Surroundings.alone path (draftPath path process)) memory
    (Spares.refl _ _ before)).ends hends
  cases outcome with
  | ok done =>
      obtain ⟨middle, next, hdrift, hpublishes, rfl⟩ := hsaves
      exact ⟨middle, hdrift, hpublishes⟩
  | error fault => exact hsaves

theorem Published.read (hpublished : Published path (draftPath path process) bytes before after) :
    after.read path = .ok bytes := by
  obtain ⟨middle, -, hpublishes⟩ := hpublished
  exact hpublishes.read (apart_draftPath path process)

theorem Published.find_draft
    (hpublished : Published path (draftPath path process) bytes before after) :
    after.find (draftPath path process) = .error .notFound := by
  obtain ⟨middle, -, hpublishes⟩ := hpublished
  exact hpublishes.find_draft (apart_draftPath path process)

theorem Published.spares
    (hpublished : Published path (draftPath path process) bytes before after) :
    Spares path {path, draftPath path process} before after := by
  obtain ⟨middle, hspares, hpublishes⟩ := hpublished
  exact (hspares.mono (by simp)).trans (hpublishes.spares (apart_draftPath path process))

end ServiceWatch.Store
