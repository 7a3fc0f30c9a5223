import ServiceWatch.Proofs.Disk.Follow
import ServiceWatch.Proofs.Plan

/-!
# Actions on files that may be refused

`Disk.perform` does every action that can be done.  A file system in use may refuse any of them,
for want of space or for no reason at all, and may write only a part of what it is given.
`Disk.Allows` says what it may reply and leave behind: an action that succeeds does what the model
says, one that is refused changes nothing, and reading tells the truth.

What a successful action does is said in terms of the location that its path names, so no proof
about a plan has to follow a path itself.
-/

namespace ServiceWatch.Disk

variable {disk next : Disk} {path source target : String} {location : Location}
  {content bytes : List UInt8}

/-! ### What successful actions do -/

theorem find_eq_file_iff {isProgram : Bool} :
    disk.find path = .ok (location, .file content isProgram) ↔
      disk.Names path location ∧ disk.node? location = some (.file content isProgram) := by
  unfold find
  simp only [bind_eq_ok_iff]
  constructor
  · rintro ⟨reached, hfollow, hfound⟩
    cases reached with
    | place place => simp at hfound
    | entry directory name hasSlash =>
        obtain ⟨child, hchild, hfound⟩ := bind_eq_ok_iff.mp hfound
        obtain ⟨hshort, hnode⟩ := child?_eq_ok_iff.mp hchild
        rcases child with _ | _ | ⟨inside, program⟩
        · simp at hfound
        · simp at hfound
        · cases hasSlash with
          | true => simp at hfound
          | false =>
              simp only [Bool.false_eq_true, if_false, Except.ok.injEq, Prod.mk.injEq,
                Node.file.injEq] at hfound
              obtain ⟨rfl, rfl, rfl⟩ := hfound
              exact ⟨⟨directory, name, hfollow, hshort, rfl⟩, hnode⟩
  · rintro ⟨⟨directory, name, hfollow, hshort, rfl⟩, hnode⟩
    refine ⟨_, hfollow, bind_eq_ok_iff.mpr ⟨_, child?_eq_ok_iff.mpr ⟨hshort, hnode⟩, ?_⟩⟩
    simp

/-- Reading gives the content of the file at the location that the path names. -/
theorem read_eq_ok_iff :
    disk.read path = .ok content ↔
      ∃ location isProgram, disk.Names path location ∧
        disk.node? location = some (.file content isProgram) := by
  unfold read
  rw [bind_eq_ok_iff]
  constructor
  · rintro ⟨⟨location, node⟩, hfind, hcontent⟩
    cases node with
    | directory => simp at hcontent
    | file inside isProgram =>
        simp only [Except.ok.injEq] at hcontent
        subst hcontent
        exact ⟨location, isProgram, find_eq_file_iff.mp hfind⟩
  · rintro ⟨location, isProgram, hnode⟩
    exact ⟨_, find_eq_file_iff.mpr hnode, rfl⟩

/-- The content of the file at a location. -/
def fileAt? (disk : Disk) (location : Location) : Option (List UInt8) :=
  match disk.node? location with
  | some (.file content _) => some content
  | _ => none

theorem fileAt?_eq_some_iff :
    disk.fileAt? location = some content ↔
      ∃ isProgram, disk.node? location = some (.file content isProgram) := by
  unfold fileAt?
  rcases disk.node? location with _ | _ | ⟨inside, isProgram⟩ <;> simp

theorem read_eq_ok_iff_fileAt? :
    disk.read path = .ok content ↔
      ∃ location, disk.Names path location ∧ disk.fileAt? location = some content := by
  simp only [read_eq_ok_iff, fileAt?_eq_some_iff, exists_and_left]

/-- A directory cannot be read, so nothing is there to be read only if nothing is found. -/
theorem read_eq_notFound_iff :
    disk.read path = .error .notFound ↔ disk.find path = .error .notFound := by
  unfold read
  rcases disk.find path with refusal | ⟨location, _ | ⟨inside, isProgram⟩⟩ <;>
    simp [bind, Except.bind]

theorem contentOf?_eq_some_iff :
    disk.contentOf? path = some content ↔ disk.read path = .ok content := by
  unfold contentOf? read
  rcases disk.find path with refusal | ⟨location, _ | ⟨inside, isProgram⟩⟩ <;>
    simp [bind, Except.bind]

/-- The content at a path is that of the file at the location that it names. -/
theorem contentOf?_of_names (hnames : disk.Names path location) :
    disk.contentOf? path = disk.fileAt? location := by
  apply Option.ext
  intro content
  rw [contentOf?_eq_some_iff, read_eq_ok_iff_fileAt?]
  constructor
  · rintro ⟨other, hother, hfile⟩
    rwa [← hother.unique hnames]
  · intro hfile
    exact ⟨location, hnames, hfile⟩

theorem makeDirectory_eq_ok (hdone : disk.makeDirectory path = .ok next) :
    ∃ directory name slash, disk.follow path = .ok (.entry directory name slash) ∧
      name.utf8ByteSize ≤ nameLimit ∧ disk.node? (directory ++ [name]) = none ∧
      next = disk.put (directory ++ [name]) .directory := by
  unfold makeDirectory at hdone
  obtain ⟨reached, hfollow, hdone⟩ := bind_eq_ok_iff.mp hdone
  cases reached with
  | place place => simp at hdone
  | entry directory name slash =>
      obtain ⟨child, hchild, hdone⟩ := bind_eq_ok_iff.mp hdone
      obtain ⟨hshort, hnode⟩ := child?_eq_ok_iff.mp hchild
      cases child with
      | some node => simp at hdone
      | none =>
          simp only [Except.ok.injEq] at hdone
          exact ⟨directory, name, slash, hfollow, hshort, hnode, hdone.symm⟩

theorem create_eq_ok (hdone : disk.create path = .ok next) :
    ∃ location isProgram, disk.Names path location ∧ disk.node? location ≠ some .directory ∧
      next = disk.put location (.file [] isProgram) := by
  unfold create at hdone
  obtain ⟨reached, hfollow, hdone⟩ := bind_eq_ok_iff.mp hdone
  cases reached with
  | place place => simp at hdone
  | entry directory name slash =>
      cases slash with
      | true => simp at hdone
      | false =>
          obtain ⟨child, hchild, hdone⟩ := bind_eq_ok_iff.mp hdone
          obtain ⟨hshort, hnode⟩ := child?_eq_ok_iff.mp hchild
          have hnames : disk.Names path (directory ++ [name]) :=
            ⟨directory, name, hfollow, hshort, rfl⟩
          rcases child with _ | _ | ⟨inside, isProgram⟩
          · simp only [Except.ok.injEq] at hdone
            exact ⟨_, false, hnames, by simp [hnode], hdone.symm⟩
          · simp at hdone
          · simp only [Except.ok.injEq] at hdone
            exact ⟨_, isProgram, hnames, by simp [hnode], hdone.symm⟩

theorem append_eq_ok (hdone : disk.append path bytes = .ok next) :
    ∃ location content isProgram, disk.Names path location ∧
      disk.node? location = some (.file content isProgram) ∧
      next = disk.put location (.file (content ++ bytes) isProgram) := by
  unfold append at hdone
  obtain ⟨⟨location, node⟩, hfind, hdone⟩ := bind_eq_ok_iff.mp hdone
  cases node with
  | directory => simp at hdone
  | file content isProgram =>
      simp only [Except.ok.injEq] at hdone
      obtain ⟨hnames, hnode⟩ := find_eq_file_iff.mp hfind
      exact ⟨location, content, isProgram, hnames, hnode, hdone.symm⟩

theorem read_of_create (hdone : disk.create path = .ok next) : next.read path = .ok [] := by
  obtain ⟨location, isProgram, hnames, hnode, rfl⟩ := create_eq_ok hdone
  refine read_eq_ok_iff.mpr
    ⟨location, isProgram, hnames.extends (Extends.put hnames.ne_nil hnode _), ?_⟩
  rw [node?_put hnames.ne_nil, if_pos rfl]

theorem read_of_append (hread : disk.read path = .ok content)
    (hdone : disk.append path bytes = .ok next) : next.read path = .ok (content ++ bytes) := by
  obtain ⟨location, isProgram, hnames, hnode⟩ := read_eq_ok_iff.mp hread
  obtain ⟨other, written, isProgram', hother, hnode', rfl⟩ := append_eq_ok hdone
  obtain rfl := hother.unique hnames
  rw [hnode] at hnode'
  obtain ⟨rfl, rfl⟩ : content = written ∧ isProgram = isProgram' := by simpa using hnode'
  refine read_eq_ok_iff.mpr
    ⟨other, isProgram, hnames.extends (Extends.put hnames.ne_nil (by simp [hnode]) _), ?_⟩
  rw [node?_put hnames.ne_nil, if_pos rfl]

/-- The file that is moved is afterwards at the new location only. -/
theorem rename_eq_ok (hdone : disk.rename source target = .ok next) :
    ∃ old new content isProgram, disk.Names source old ∧ disk.Names target new ∧
      disk.node? old = some (.file content isProgram) ∧ disk.node? new ≠ some .directory ∧
      (old = new ∧ next = disk ∨
        old ≠ new ∧ next = (disk.drop old).put new (.file content isProgram)) := by
  unfold rename at hdone
  obtain ⟨left, hsource, hdone⟩ := bind_eq_ok_iff.mp hdone
  obtain ⟨right, htarget, hdone⟩ := bind_eq_ok_iff.mp hdone
  -- what is refused comes first, so that the move of a file is left
  obtain ⟨oldPlace, name, hasSlash⟩ | place := left
  swap
  · simp at hdone
  obtain ⟨newPlace, newName, newSlash⟩ | place := right
  swap
  · simp at hdone
  obtain ⟨child, hchild, hdone⟩ := bind_eq_ok_iff.mp hdone
  obtain ⟨hshort, hnode⟩ := child?_eq_ok_iff.mp hchild
  cases child with
  | none => simp at hdone
  | some node =>
      obtain ⟨old, hold, hdone⟩ := bind_eq_ok_iff.mp hdone
      obtain ⟨hshort', hnode'⟩ := child?_eq_ok_iff.mp hold
      cases node with
      | directory => simp at hdone
      | file content isProgram =>
          have hslashes : (hasSlash || newSlash) = false := by
            rw [Bool.eq_false_iff]
            intro hslash
            simp only [hslash, if_true] at hdone
            exact absurd hdone (by simp)
          have hdirectory : old ≠ some .directory := by
            intro hdirectory
            simp [hslashes, hdirectory] at hdone
          obtain ⟨rfl, rfl⟩ := Bool.or_eq_false_iff.mp hslashes
          simp only [Bool.or_self, Bool.false_eq_true, if_false, if_neg hdirectory] at hdone
          refine ⟨oldPlace ++ [name], newPlace ++ [newName], content, isProgram,
            ⟨_, _, hsource, hshort, rfl⟩, ⟨_, _, htarget, hshort', rfl⟩, hnode,
            hnode' ▸ hdirectory, ?_⟩
          by_cases hsame : oldPlace ++ [name] = newPlace ++ [newName]
          · rw [if_pos hsame] at hdone
            exact Or.inl ⟨hsame, (Except.ok.inj hdone).symm⟩
          · rw [if_neg hsame] at hdone
            exact Or.inr ⟨hsame, (Except.ok.inj hdone).symm⟩

theorem remove_eq_ok (hdone : disk.remove path = .ok next) :
    ∃ location content isProgram, disk.Names path location ∧
      disk.node? location = some (.file content isProgram) ∧ next = disk.drop location := by
  unfold remove at hdone
  obtain ⟨reached, hfollow, hdone⟩ := bind_eq_ok_iff.mp hdone
  cases reached with
  | place place => simp at hdone
  | entry directory name slash =>
      obtain ⟨child, hchild, hdone⟩ := bind_eq_ok_iff.mp hdone
      obtain ⟨hshort, hnode⟩ := child?_eq_ok_iff.mp hchild
      rcases child with _ | _ | ⟨content, isProgram⟩
      · simp at hdone
      · simp at hdone
      · cases slash with
        | true => simp at hdone
        | false =>
            simp only [Bool.false_eq_true, if_false, Except.ok.injEq] at hdone
            exact ⟨_, content, isProgram, ⟨_, _, hfollow, hshort, rfl⟩, hnode, hdone.symm⟩

/-- A file that can be read can be removed. -/
theorem exists_remove_of_read (hread : disk.read path = .ok content) :
    ∃ next, disk.remove path = .ok next := by
  obtain ⟨location, isProgram, ⟨directory, name, hfollow, hshort, rfl⟩, hnode⟩ :=
    read_eq_ok_iff.mp hread
  refine ⟨disk.drop (directory ++ [name]), bind_eq_ok_iff.mpr ⟨_, hfollow,
    bind_eq_ok_iff.mpr ⟨_, child?_eq_ok_iff.mpr ⟨hshort, hnode⟩, ?_⟩⟩⟩
  simp

/-- A directory is found at the path as long as it is there. -/
theorem find_directory_of_extends {later : Disk} (hextends : Extends disk later)
    (hfind : disk.find path = .ok (location, .directory)) :
    later.find path = .ok (location, .directory) := by
  unfold find at hfind ⊢
  obtain ⟨reached, hfollow, hfound⟩ := bind_eq_ok_iff.mp hfind
  refine bind_eq_ok_iff.mpr ⟨reached, follow_of_extends hextends hfollow, ?_⟩
  cases reached with
  | place place => exact hfound
  | entry directory name hasSlash =>
      obtain ⟨child, hchild, hfound⟩ := bind_eq_ok_iff.mp hfound
      obtain ⟨hshort, hnode⟩ := child?_eq_ok_iff.mp hchild
      rcases child with _ | _ | ⟨content, isProgram⟩
      · simp at hfound
      · exact bind_eq_ok_iff.mpr
          ⟨_, child?_eq_ok_iff.mpr ⟨hshort, hextends.directory _ hnode⟩, hfound⟩
      · cases hasSlash <;> simp at hfound

/-- A directory that was made is found at its path. -/
theorem find_of_makeDirectory (hdone : disk.makeDirectory path = .ok next) :
    ∃ location, location ≠ [] ∧ disk.node? location = none ∧ next = disk.put location .directory ∧
      next.find path = .ok (location, .directory) := by
  obtain ⟨directory, name, slash, hfollow, hshort, hnone, rfl⟩ := makeDirectory_eq_ok hdone
  have hextends : Extends disk (disk.put (directory ++ [name]) .directory) :=
    Extends.put (by simp) (by simp [hnone]) .directory
  refine ⟨directory ++ [name], by simp, hnone, rfl,
    bind_eq_ok_iff.mpr ⟨_, follow_of_extends hextends hfollow,
      bind_eq_ok_iff.mpr ⟨some .directory, child?_eq_ok_iff.mpr ⟨hshort, ?_⟩, rfl⟩⟩⟩
  rw [node?_put (by simp), if_pos rfl]

/-- A file that is dropped is not found any more. -/
theorem find_eq_notFound (hnames : disk.Names path location) (hnone : disk.node? location = none) :
    disk.find path = .error .notFound := by
  obtain ⟨directory, name, hfollow, hshort, rfl⟩ := hnames
  have hchild : disk.child? directory name = .ok none := child?_eq_ok_iff.mpr ⟨hshort, hnone⟩
  simp [find, hfollow, hchild, bind, Except.bind]

/-- Nothing is at a path whose file was removed. -/
theorem read_of_remove (hdone : disk.remove path = .ok next) :
    next.read path = .error .notFound := by
  obtain ⟨location, content, isProgram, hnames, hnode, rfl⟩ := remove_eq_ok hdone
  have hlater := hnames.extends (Extends.drop hnames.ne_nil (by simp [hnode]))
  refine read_eq_notFound_iff.mpr (find_eq_notFound hlater ?_)
  rw [node?_drop hnames.ne_nil, if_pos rfl]

/-! ### What may be replied -/

/-- An action without a result was done, or was refused and changed nothing. -/
def MaySettle (disk : Disk) (outcome : Except SystemError Disk) :
    Except SystemError Unit → Disk → Prop
  | .ok (), next => outcome = .ok next
  | .error _, next => next = disk

/-- A write put in as much as it says, or was refused and put in nothing. -/
def MayAppend (disk : Disk) (path : String) (bytes : List UInt8) :
    Except SystemError Nat → Disk → Prop
  | .ok count, next => count ≤ bytes.length ∧ disk.append path (bytes.take count) = .ok next
  | .error _, next => next = disk

/-- The replies that a file system may give.  Only what is read, and that a file to be removed is
not there, has to be true. -/
def Allows : Plan.Behaviour files Disk := fun disk action =>
  match action with
  | .read path => fun reply next => reply = disk.read path ∧ next = disk
  | .makeDirectory path => fun reply next => MaySettle disk (disk.makeDirectory path) reply next
  | .isDirectory path => fun reply next =>
    (reply = true → disk.isDirectory path = true) ∧ next = disk
  | .create path => fun reply next => MaySettle disk (disk.create path) reply next
  | .append path bytes => fun reply next => MayAppend disk path bytes reply next
  | .sync _ => fun _ next => next = disk
  | .rename source target => fun reply next =>
    MaySettle disk (disk.rename source target) reply next
  | .remove path => fun reply next =>
    MaySettle disk (disk.remove path) reply next ∧
      (reply = .error .notFound → disk.remove path = .error .notFound)

/-- The replies of a file system that may refuse to read, too.  That there is no file has to be
true. -/
def MayFail : Plan.Behaviour files Disk := fun disk action =>
  match action with
  | .read path => fun reply next =>
    (reply = disk.read path ∨ ∃ refusal, refusal ≠ .notFound ∧ reply = .error refusal) ∧ next = disk
  | action => Allows disk action

theorem Allows.mayFail {action : Action} {reply : action.Reply}
    (hallows : Allows disk action reply next) : MayFail disk action reply next := by
  cases action with
  | read path => exact ⟨Or.inl hallows.1, hallows.2⟩
  | _ => exact hallows

theorem ends_mayFail {α : Type} {plan : Plan files α} {ending : α}
    (hends : plan.Ends Allows disk ending next) : plan.Ends MayFail disk ending next :=
  hends.mono fun _ _ _ _ => Allows.mayFail

/-- The replies of a file system that removes every file that it is asked to remove. -/
def Unlinks : Plan.Behaviour files Disk := fun disk action =>
  match action with
  | .remove path => fun reply next =>
    Allows disk (.remove path) reply next ∧ ∀ after, disk.remove path = .ok after → reply = .ok ()
  | action => Allows disk action

theorem Unlinks.allows {action : Action} {reply : action.Reply}
    (hunlinks : Unlinks disk action reply next) : Allows disk action reply next := by
  cases action with
  | remove path => exact hunlinks.1
  | _ => exact hunlinks

theorem allows_of_unlinks {α : Type} {plan : Plan files α} {ending : α}
    (hends : plan.Ends Unlinks disk ending next) : plan.Ends Allows disk ending next :=
  hends.mono fun _ _ _ _ => Unlinks.allows

/-- A relation that every disk has to itself, and that a disk has to the result of an action, holds
whether the action was done or refused. -/
theorem MaySettle.related (related : Disk → Disk → Prop) {outcome : Except SystemError Disk}
    {reply : Except SystemError Unit} (hsettle : MaySettle disk outcome reply next)
    (hrefl : related disk disk) (hdone : outcome = .ok next → related disk next) :
    related disk next := by
  cases reply with
  | ok done => exact hdone hsettle
  | error refusal =>
      rw [show next = disk from hsettle]
      exact hrefl

theorem maySettle_settle (disk : Disk) (outcome : Except SystemError Disk) :
    MaySettle disk outcome (disk.settle outcome).1 (disk.settle outcome).2 := by
  cases outcome with
  | ok next => rfl
  | error refusal => rfl

/-- The model of a file system does what a file system may do. -/
theorem allows_perform (disk : Disk) (action : Action) :
    Allows disk action (disk.perform action).1 (disk.perform action).2 := by
  cases action with
  | read path => exact ⟨rfl, rfl⟩
  | makeDirectory path => exact maySettle_settle disk _
  | isDirectory path => exact ⟨id, rfl⟩
  | create path => exact maySettle_settle disk _
  | append path bytes =>
      simp only [perform, Allows]
      cases happend : disk.append path bytes with
      | ok next => exact ⟨Nat.le_refl _, by rw [List.take_length, happend]⟩
      | error refusal => rfl
  | sync path => rfl
  | rename source target => exact maySettle_settle disk _
  | remove path =>
      refine ⟨maySettle_settle disk _, ?_⟩
      simp only [perform, settle]
      intro hreply
      cases hremove : disk.remove path with
      | ok next =>
          rw [hremove] at hreply
          exact absurd hreply (by simp)
      | error refusal =>
          rw [hremove] at hreply
          injection hreply with hrefusal
          rw [hrefusal]

/-- The model of a file system as a way to carry out plans. -/
def handle (action : files.Request) : StateM Disk (files.Reply action) :=
  fun disk => disk.perform action

theorem unlinks_handle (disk : Disk) (action : Action) :
    Unlinks disk action (handle action disk).1 (handle action disk).2 := by
  have hallows := allows_perform disk action
  cases action with
  | remove path =>
      refine ⟨hallows, fun after hdone => ?_⟩
      change (disk.settle (disk.remove path)).1 = .ok ()
      rw [hdone, settle]
  | _ => exact hallows

/-- The replies of the model itself, of which there is one to every request. -/
def Performs : Plan.Behaviour files Disk := fun disk action reply next =>
  disk.perform action = (reply, next)

theorem allows_of_performs {action : Action} {reply : action.Reply}
    (hperforms : Performs disk action reply next) : Allows disk action reply next := by
  have hallows := allows_perform disk action
  rwa [show disk.perform action = (reply, next) from hperforms] at hallows

theorem isDetermined_performs : Plan.IsDetermined Performs := by
  intro disk action first second firstNext secondNext hfirst hsecond
  exact Prod.mk.inj (hsecond.symm.trans hfirst)

/-! ### What no action breaks -/

/-- A change of the disk that takes away no directory and leaves no node without one. -/
structure Grows (disk next : Disk) : Prop where
  keeps : Extends disk next
  rooted : disk.Rooted → next.Rooted

theorem Grows.refl (disk : Disk) : Grows disk disk := ⟨Extends.refl disk, id⟩

theorem Grows.trans {middle : Disk} (hfirst : Grows disk middle) (hsecond : Grows middle next) :
    Grows disk next :=
  ⟨hfirst.keeps.trans hsecond.keeps, fun hrooted => hsecond.rooted (hfirst.rooted hrooted)⟩

theorem Grows.put (hlocation : location ≠ []) (hnode : disk.node? location ≠ some .directory)
    (hparent : disk.Rooted → disk.node? location.dropLast = some .directory) (node : Node) :
    Grows disk (disk.put location node) :=
  ⟨Extends.put hlocation hnode node, fun hrooted =>
    hrooted.put hlocation hnode (hparent hrooted) node⟩

theorem Grows.drop (hlocation : location ≠ []) (hnode : disk.node? location ≠ some .directory) :
    Grows disk (disk.drop location) :=
  ⟨Extends.drop hlocation hnode, fun hrooted => hrooted.drop hlocation hnode⟩

theorem grows_makeDirectory (hdone : disk.makeDirectory path = .ok next) : Grows disk next := by
  obtain ⟨directory, name, slash, hfollow, -, hnode, rfl⟩ := makeDirectory_eq_ok hdone
  apply Grows.put (by simp) (by simp [hnode])
  intro hrooted
  rw [List.dropLast_concat]
  exact hrooted.directory_followSegments (hrooted.directory_origin path)
    (follow_eq_ok_iff.mp hfollow).2

theorem grows_create (hdone : disk.create path = .ok next) : Grows disk next := by
  obtain ⟨location, isProgram, hnames, hnode, rfl⟩ := create_eq_ok hdone
  exact Grows.put hnames.ne_nil hnode hnames.parent _

theorem grows_append (hdone : disk.append path bytes = .ok next) : Grows disk next := by
  obtain ⟨location, content, isProgram, hnames, hnode, rfl⟩ := append_eq_ok hdone
  exact Grows.put hnames.ne_nil (by simp [hnode]) hnames.parent _

theorem grows_remove (hdone : disk.remove path = .ok next) : Grows disk next := by
  obtain ⟨location, content, isProgram, hnames, hnode, rfl⟩ := remove_eq_ok hdone
  exact Grows.drop hnames.ne_nil (by simp [hnode])

theorem grows_rename (hdone : disk.rename source target = .ok next) : Grows disk next := by
  obtain ⟨old, new, content, isProgram, hold, hnew, hnode, hfree, ⟨-, rfl⟩ | ⟨hne, rfl⟩⟩ :=
    rename_eq_ok hdone
  · exact Grows.refl _
  · -- first the old location is given up, and on that disk the new one is free
    have hdrop : Grows disk (disk.drop old) := Grows.drop hold.ne_nil (by simp [hnode])
    refine hdrop.trans (Grows.put hnew.ne_nil ?_ ?_ _)
    · rw [node?_drop hold.ne_nil, if_neg hne.symm]
      exact hfree
    · intro hrooted
      exact (hnew.extends hdrop.keeps).parent hrooted

/-- Whatever is replied, no directory goes away and every node stands in one. -/
theorem Allows.grows {action : Action} {reply : action.Reply}
    (hallows : Allows disk action reply next) : Grows disk next := by
  cases action with
  | read path =>
      rw [hallows.2]
      exact Grows.refl disk
  | makeDirectory path =>
      exact MaySettle.related Grows hallows (Grows.refl disk) grows_makeDirectory
  | isDirectory path =>
      rw [hallows.2]
      exact Grows.refl disk
  | create path => exact MaySettle.related Grows hallows (Grows.refl disk) grows_create
  | append path bytes =>
      cases reply with
      | ok count => exact grows_append hallows.2
      | error refusal =>
          rw [show next = disk from hallows]
          exact Grows.refl disk
  | sync path =>
      rw [show next = disk from hallows]
      exact Grows.refl disk
  | rename source target =>
      exact MaySettle.related Grows hallows (Grows.refl disk) grows_rename
  | remove path => exact MaySettle.related Grows hallows.1 (Grows.refl disk) grows_remove

theorem grows_of_ends {α : Type} {plan : Plan files α} {ending : α}
    (hends : plan.Ends Allows disk ending next) : Grows disk next :=
  hends.preserves (fun _ _ _ _ hbefore hallows => hbefore.trans (Allows.grows hallows))
    (Grows.refl disk)

end ServiceWatch.Disk
