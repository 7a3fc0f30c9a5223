import ServiceWatch.Proofs.Store.Failure
import ServiceWatch.Proofs.Store.RoundTrip

/-!
# The file as a register

One process uses the file again and again: it saves, forgets, reads and loads, and any save may fail
at any step.  What it is answered depends on one memory alone, that of the last save that succeeded
and was not forgotten since (`stored`), and no draft is left behind (`answers_of_calls`).

This needs a file system that removes what it is asked to remove, and a path that is firm: a save
that fails leaves the directories that it made, and a path that is not firm may lead to something
else once they are there (`answers_change_with_directories`).

## Strategy

Every answer follows from what can be read at the path, which is the document of the stored memory
or nothing (`Remembers`).  One call keeps it so (`Remembers.step`); for a save that fails this is
what `Restores` is for.
-/

namespace ServiceWatch.Store

open Disk (Allows Names Unlinks)

variable {path : String} {process : ℕ} {before disk after : Disk} {kept : Option Memory}

/-! ### Calls -/

/-- A use of the file. -/
inductive Access where
  | save (memory : Memory)
  | clear
  | read
  | load

def Access.Reply : Access → Type
  | .save _ => Except Fault Unit
  | .clear => Except Fault Bool
  | .read => Except Fault (Option Memory)
  | .load => Loaded

def Access.plan (path : String) (process : ℕ) : (access : Access) → FilePlan access.Reply
  | .save memory => Store.save path process memory
  | .clear => Store.clear path
  | .read => Store.read path
  | .load => Store.load path

/-- A use of the file, and what it was answered. -/
structure Call where
  access : Access
  reply : access.Reply

/-- The calls that a process may make one after the other, from the disk `before`. -/
inductive Calls (path : String) (process : ℕ) (before : Disk) : List Call → Disk → Prop
  | start : Calls path process before [] before
  | call {calls : List Call} {call : Call} {disk after : Disk}
      (hcalls : Calls path process before calls disk)
      (hends : (call.access.plan path process).Ends Unlinks disk call.reply after) :
      Calls path process before (calls ++ [call]) after

/-- What is stored behind a call. -/
def Call.stores (kept : Option Memory) : Call → Option Memory
  | ⟨.save memory, .ok ()⟩ => some memory
  | ⟨.clear, .ok _⟩ => none
  | _ => kept

/-- The memory of the last save that succeeded, unless it was forgotten since. -/
def stored (calls : List Call) : Option Memory :=
  calls.foldl Call.stores none

theorem stored_append (calls : List Call) (call : Call) :
    stored (calls ++ [call]) = call.stores (stored calls) :=
  List.foldl_append ..

/-- The document of the stored memory can be decoded, and this is what it holds. -/
def Recalls (kept found : Option Memory) : Prop :=
  match kept with
  | some memory => ∃ reread, decode (encode memory) = .ok reread ∧ found = some reread
  | none => found = none

/-- The answer is the one of a register that holds the stored memory. -/
def Call.IsAnswered (kept : Option Memory) : Call → Prop
  | ⟨.save _, _⟩ => True
  | ⟨.clear, reply⟩ => reply = .ok true ↔ kept.isSome
  | ⟨.read, reply⟩ => ∃ found, Recalls kept found ∧ reply = .ok found
  | ⟨.load, reply⟩ => ∃ found, Recalls kept found ∧ reply = ⟨found.getD .blank, none⟩

/-! ### One call -/

/-- The document of the stored memory is at the path, or there is nothing. -/
structure Remembers (path : String) (kept : Option Memory) (disk : Disk) : Prop where
  rooted : disk.Rooted
  firm : disk.Firm path
  content : disk.read path = (kept.map encode).elim (.error .notFound) .ok

/-- Every file is at the path, or it was there before. -/
def Frames (path : String) (before after : Disk) : Prop :=
  ∀ location content, after.fileAt? location = some content →
    after.Names path location ∨ before.fileAt? location = some content

theorem Frames.refl (path : String) (disk : Disk) : Frames path disk disk :=
  fun _ _ => Or.inr

theorem Frames.trans (hfirst : Frames path before disk) (hsecond : Frames path disk after)
    (hgrows : Disk.Grows disk after) : Frames path before after := by
  intro location content hafter
  rcases hsecond location content hafter with hnames | hdisk
  · exact Or.inl hnames
  · exact (hfirst location content hdisk).imp_left fun hnames => hnames.extends hgrows.keeps

theorem frames_remove (hremove : disk.remove path = .ok after) : Frames path disk after := by
  intro location content hfile
  obtain ⟨removed, inside, isProgram, hnames, -, rfl⟩ := Disk.remove_eq_ok hremove
  by_cases hlocation : location = removed
  · exact Or.inl (hlocation ▸ hnames.extends (Disk.grows_remove hremove).keeps)
  · rw [Disk.fileAt?, Disk.node?_drop hnames.ne_nil, if_neg hlocation] at hfile
    exact Or.inr hfile

theorem Published.frames {bytes : List UInt8}
    (hpublished : Published path (draftPath path process) bytes before after) :
    Frames path before after := by
  intro location content hfile
  rcases hpublished.spares.node location with
    ⟨target, rfl | rfl, hnames⟩ | hsame | ⟨-, hmade, -⟩
  · exact Or.inl hnames
  · -- the draft was moved away
    have hread := Disk.read_eq_ok_iff_fileAt?.mpr ⟨location, hnames, hfile⟩
    rw [Disk.read_eq_notFound_iff.mpr hpublished.find_draft] at hread
    exact absurd hread (by simp)
  · rw [Disk.fileAt?, hsame] at hfile
    exact Or.inr hfile
  · rw [Disk.fileAt?, hmade] at hfile
    exact absurd hfile (by simp)

theorem Remembers.save {memory : Memory} {outcome : Except Fault Unit}
    (hremembers : Remembers path kept disk)
    (hends : (Store.save path process memory).Ends Unlinks disk outcome after) :
    Remembers path (Call.stores kept ⟨.save memory, outcome⟩) after ∧ Frames path disk after := by
  have hallowed := Disk.allows_of_unlinks hends
  have hgrows := Disk.grows_of_ends hallowed
  have hrooted := hgrows.rooted hremembers.rooted
  have hfirm := hremembers.firm.extends hgrows.keeps
  have hsaved := save_ends (Disk.ends_mayFail hallowed)
  cases outcome with
  | ok done => exact ⟨⟨hrooted, hfirm, hsaved.read⟩, hsaved.frames⟩
  | error fault =>
      have hrestores := restores_of_save hends
      refine ⟨⟨hrooted, hfirm, ?_⟩,
        fun location content hfile => Or.inr (hrestores.file location content hfile)⟩
      have hcontent := hremembers.content
      cases kept with
      | none => exact hrestores.read_eq_notFound hremembers.firm hremembers.rooted hcontent
      | some memory => exact hsaved.1.read apart_of_mem_draft hcontent

theorem Remembers.clear {outcome : Except Fault Bool} (hremembers : Remembers path kept disk)
    (hends : (Store.clear path).Ends Unlinks disk outcome after) :
    (outcome = .ok true ↔ kept.isSome) ∧
      Remembers path (Call.stores kept ⟨.clear, outcome⟩) after ∧ Frames path disk after := by
  have hcontent := hremembers.content
  obtain ⟨answer, between, ⟨⟨hsettle, -⟩, hremoves⟩, hrest⟩ := hends
  cases answer with
  | ok done =>
      obtain ⟨rfl, rfl⟩ := hrest
      have hgrows := Disk.grows_remove hsettle
      have hthere : kept.isSome := by
        cases kept with
        | some memory => rfl
        | none =>
            -- a file that is removed could be read
            obtain ⟨location, content, isProgram, hnames, hnode, -⟩ := Disk.remove_eq_ok hsettle
            have hread := Disk.read_eq_ok_iff.mpr ⟨location, isProgram, hnames, hnode⟩
            rw [hcontent] at hread
            exact absurd hread (by simp)
      exact ⟨⟨fun _ => hthere, fun _ => rfl⟩, ⟨hgrows.rooted hremembers.rooted,
        hremembers.firm.extends hgrows.keeps, Disk.read_of_remove hsettle⟩, frames_remove hsettle⟩
  | error refusal =>
      obtain rfl : between = disk := hsettle
      obtain ⟨hne, rfl⟩ : outcome ≠ .ok true ∧ after = between := by
        cases refusal <;> exact ⟨by rw [hrest.1]; simp, hrest.2⟩
      cases kept with
      | none =>
          have hstores : Call.stores none ⟨.clear, outcome⟩ = none := by
            cases outcome <;> rfl
          rw [hstores]
          exact ⟨by simp [hne], hremembers, Frames.refl path after⟩
      | some memory =>
          obtain ⟨next, hremove⟩ := Disk.exists_remove_of_read hcontent
          exact absurd (hremoves next hremove) (by simp)

theorem recalls_of_remembers (hremembers : Remembers path kept disk) :
    ∃ found, Recalls kept found ∧ ofContent path (disk.read path) = .ok found := by
  rw [hremembers.content]
  cases kept with
  | none => exact ⟨none, rfl, rfl⟩
  | some memory =>
      refine ⟨some memory.reread, ⟨_, decode_encode memory, rfl⟩, ?_⟩
      simp [ofContent, decode_encode, Except.map]

/-- **Every call is answered from the stored memory, and leaves what it is said to store.** -/
theorem Remembers.step {call : Call} (hremembers : Remembers path kept disk)
    (hends : (call.access.plan path process).Ends Unlinks disk call.reply after) :
    call.IsAnswered kept ∧ Remembers path (call.stores kept) after ∧ Frames path disk after := by
  obtain ⟨access, reply⟩ := call
  obtain ⟨found, hrecalls, hfound⟩ := recalls_of_remembers hremembers
  cases access with
  | save memory => exact ⟨trivial, hremembers.save hends⟩
  | clear => exact hremembers.clear hends
  | read =>
      obtain ⟨_, _, ⟨rfl, rfl⟩, rfl, rfl⟩ := hends
      exact ⟨⟨found, hrecalls, hfound⟩, hremembers, Frames.refl path after⟩
  | load =>
      obtain ⟨_, ⟨rfl, rfl⟩, rfl⟩ := ends_load_iff.mp hends
      exact ⟨⟨found, hrecalls, by rw [hfound]; rfl⟩, hremembers, Frames.refl path after⟩

/-! ### All calls -/

variable {calls : List Call}

theorem Calls.remembers (hcalls : Calls path process before calls after)
    (hbefore : Remembers path none before) :
    Remembers path (stored calls) after ∧ Frames path before after := by
  induction hcalls with
  | start => exact ⟨hbefore, Frames.refl path before⟩
  | call _ hends ih =>
      obtain ⟨hremembers, hframes⟩ := ih
      obtain ⟨-, hnext, hframes'⟩ := hremembers.step hends
      rw [stored_append]
      exact ⟨hnext, hframes.trans hframes' (Disk.grows_of_ends (Disk.allows_of_unlinks hends))⟩

/-- Every call was made on the disk that the calls before it left. -/
theorem Calls.moment (hcalls : Calls path process before calls after) {early late : List Call}
    {call : Call} (hsplit : calls = early ++ call :: late) :
    ∃ disk next, Calls path process before early disk ∧
      (call.access.plan path process).Ends Unlinks disk call.reply next := by
  induction hcalls generalizing late with
  | start => exact absurd hsplit (by simp)
  | @call calls last disk after hcalls hends ih =>
      rcases List.eq_nil_or_concat late with rfl | ⟨rest, other, rfl⟩
      · obtain ⟨rfl, hlast⟩ := List.append_inj' hsplit rfl
        obtain rfl := List.singleton_inj.mp hlast
        exact ⟨disk, after, hcalls, hends⟩
      · rw [List.concat_eq_append, ← List.cons_append, ← List.append_assoc] at hsplit
        exact ih (List.append_inj' hsplit rfl).1

/-- **The file is a register.**  From a disk with nothing at the path, every call is answered from
the memory of the last save before it that succeeded and was not forgotten, and a file that is at
the draft afterwards was at that very place from the start. -/
theorem answers_of_calls (hcalls : Calls path process before calls after)
    (hrooted : before.Rooted) (hfirm : before.Firm path)
    (hnone : before.read path = .error .notFound) :
    (∀ early call late, calls = early ++ call :: late → call.IsAnswered (stored early)) ∧
      ∀ content, after.read (draftPath path process) = .ok content →
        ∃ location, after.Names (draftPath path process) location ∧
          before.fileAt? location = some content := by
  have hbefore : Remembers path none before := ⟨hrooted, hfirm, hnone⟩
  constructor
  · intro early call late hsplit
    obtain ⟨disk, next, hearly, hends⟩ := hcalls.moment hsplit
    exact ((hearly.remembers hbefore).1.step hends).1
  · intro content hread
    obtain ⟨location, hnames, hfile⟩ := Disk.read_eq_ok_iff_fileAt?.mp hread
    rcases (hcalls.remembers hbefore).2 location content hfile with hpath | hstood
    · exact absurd hnames (apart_draftPath path process after location hpath)
    · exact ⟨location, hnames, hstood⟩

/-! ### A disk that may be full -/

/-- A disk on which no file can be made. -/
def fullDisk (action : Disk.Action) : StateM Disk action.Reply :=
  match action with
  | .create _ => fun disk => (.error (.other 28 "No space left on device"), disk)
  | action => Disk.handle action

theorem unlinks_fullDisk (disk : Disk) (action : Disk.Action) :
    Unlinks disk action (fullDisk action disk).1 (fullDisk action disk).2 := by
  cases action with
  | create target => exact rfl
  | _ => exact Disk.unlinks_handle disk _

/-- Makes one call after another; the disk is full at those that are marked. -/
def makeCalls (path : String) (process : ℕ) (disk : Disk) (accesses : List (Access × Bool)) :
    List Call × Disk :=
  accesses.foldl (fun made access =>
    let ending := (access.1.plan path process).run
      (if access.2 then fullDisk else Disk.handle) made.2
    (made.1 ++ [⟨access.1, ending.1⟩], ending.2)) ([], disk)

theorem calls_makeCalls (path : String) (process : ℕ) (disk : Disk)
    (accesses : List (Access × Bool)) :
    Calls path process disk (makeCalls path process disk accesses).1
      (makeCalls path process disk accesses).2 := by
  unfold makeCalls
  induction accesses using List.reverseRec with
  | nil => exact .start
  | append_singleton accesses access ih =>
      rw [List.foldl_append, List.foldl_cons, List.foldl_nil]
      refine ih.call (Plan.ends_run ?_ _ _)
      intro state action
      cases access.2
      · exact Disk.unlinks_handle state action
      · exact unlinks_fullDisk state action

def endless : Memory where
  last := { finality := some (.infinity true), received := some .nan }

/-- A save that succeeds, one that fails, and two times that the file is removed. -/
def uses : List Call × Disk :=
  makeCalls "state.json" 1 ⟨[], []⟩ [(.read, false), (.save endless, false), (.save .blank, true),
    (.load, false), (.clear, false), (.clear, false), (.read, false), (.save .blank, false)]

/-- A register that forgets, and remembers what was saved last. -/
theorem answers_of_uses :
    Calls "state.json" 1 ⟨[], []⟩ uses.1 uses.2 ∧ Disk.Rooted ⟨[], []⟩ ∧
      Disk.Firm ⟨[], []⟩ "state.json" ∧ Disk.read ⟨[], []⟩ "state.json" = .error .notFound ∧
      stored (uses.1.take 4) = some endless ∧ stored (uses.1.take 6) = none ∧
      (∀ early call late, uses.1 = early ++ call :: late → call.IsAnswered (stored early)) ∧
      ∀ content, uses.2.read (draftPath "state.json" 1) ≠ .ok content := by
  have hcalls := calls_makeCalls "state.json" 1 ⟨[], []⟩ [(.read, false), (.save endless, false),
    (.save .blank, true), (.load, false), (.clear, false), (.clear, false), (.read, false),
    (.save .blank, false)]
  have hrooted : Disk.Rooted ⟨[], []⟩ := by decide +kernel
  have hplain : Disk.ArePlain (Disk.segments "state.json") := by decide +kernel
  have hnone : Disk.read ⟨[], []⟩ "state.json" = .error .notFound := by decide +kernel
  obtain ⟨hanswers, hdraft⟩ := answers_of_calls hcalls hrooted (hplain.firm _) hnone
  refine ⟨hcalls, hrooted, hplain.firm _, hnone, by decide +kernel, by decide +kernel, hanswers, ?_⟩
  intro content hread
  obtain ⟨location, -, hstood⟩ := hdraft content hread
  rw [Disk.fileAt?_eq_some_iff] at hstood
  obtain ⟨isProgram, hnode⟩ := hstood
  by_cases hroot : location = [] <;> simp [Disk.node?, hroot] at hnode

/-! ### Paths that are not firm -/

theorem ofContent_eq_ok_none {reply : Except SystemError (List UInt8)}
    (hnone : ofContent path reply = .ok none) : reply = .error .notFound := by
  cases reply with
  | ok content =>
      unfold ofContent at hnone
      cases hdecode : decode content <;> simp [hdecode, Except.map] at hnone
  | error refusal =>
      by_contra hne
      rw [ofContent_error fun heq => hne (by rw [heq])] at hnone
      exact absurd hnone (by simp)

/-- A save that fails is seen if there is something at the path afterwards. -/
theorem exists_calls_of_save {memory : Memory} {fault : Fault}
    (hends : (save path process memory).Ends Unlinks before (.error fault) after)
    (hread : after.read path ≠ .error .notFound) :
    ∃ calls, Calls path process before calls after ∧
      ¬ ∀ early call late, calls = early ++ call :: late → call.IsAnswered (stored early) := by
  have hsave : Calls path process before ([] ++ [⟨.save memory, .error fault⟩]) after :=
    .call .start hends
  have hcalls : Calls path process before ([] ++ [⟨.save memory, .error fault⟩] ++
      [⟨.read, ofContent path (after.read path)⟩]) after :=
    .call hsave ⟨_, after, ⟨rfl, rfl⟩, rfl, rfl⟩
  refine ⟨_, hcalls, fun hanswers => hread ?_⟩
  obtain ⟨found, rfl, hfound⟩ := hanswers [⟨.save memory, .error fault⟩] _ [] rfl
  exact ofContent_eq_ok_none hfound

/-- A name that no directory takes, though a path may have it. -/
structure IsOverlong (name : String) : Prop where
  long : Disk.nameLimit < name.utf8ByteSize
  short : name.utf8ByteSize ≤ 2 * Disk.nameLimit
  slash : '/' ∉ name.toList
  null : Char.ofNat 0 ∉ name.toList

namespace IsOverlong

variable {name other : String}

theorem ne (hname : IsOverlong name) (hother : other.utf8ByteSize ≤ Disk.nameLimit) :
    name ≠ other := by
  rintro rfl
  exact absurd hname.long (Nat.not_lt.mpr hother)

theorem isPath (hname : IsOverlong name) : Disk.IsPath ("d/" ++ name) := by
  refine ⟨by simp [hname.null], fun hempty => ?_, ?_⟩
  · simpa using congrArg String.length hempty
  · have hshort := hname.short
    have hfront : "d/".utf8ByteSize = 2 := rfl
    simp only [Disk.nameLimit, Disk.pathLimit, String.utf8ByteSize_append] at hshort ⊢
    omega

theorem segments (hname : IsOverlong name) : Disk.segments ("d/" ++ name) = ["d", name] := by
  have hpath : "d/" ++ name = "d" ++ "/" ++ name := rfl
  rw [hpath, Path.segments_append_slash, Path.segments_eq_singleton (by decide) (by decide),
    Path.segments_eq_singleton hname.slash (hname.ne (by decide)), List.singleton_append]

theorem find (hname : IsOverlong name) (disk : Disk) :
    disk.find ("d/" ++ name) =
      disk.seek (Disk.endsInSlash ("d/" ++ name)) disk.workingDirectory ["d", name] := by
  have horigin : disk.origin ("d/" ++ name) = disk.workingDirectory := by simp [Disk.origin]
  rw [Disk.find_eq_seek hname.isPath, horigin, hname.segments]

theorem parent? (hname : IsOverlong name) : Path.parent? ("d/" ++ name) = some "d" := by
  have htext : ("d/" ++ name).toList = 'd' :: '/' :: name.toList := by simp
  have hsegments : Path.backSegments ('d' :: '/' :: name.toList) = [name.toList, ['d']] := by
    have hsplit := List.splitOn_append_cons_self (a := '/') ['d'] name.toList
    rw [List.splitOn_eq_singleton hname.slash] at hsplit
    rw [Path.backSegments, Text.splitOn_eq]
    exact congrArg List.reverse hsplit
  have hcut : Path.cut ("d/" ++ name).toList = ⟨[], [name.toList, ['d']]⟩ := by
    rw [htext, ← hsegments]
    rfl
  have hidle : Path.isIdle name.toList = false := by
    have hempty : name.toList ≠ [] :=
      fun h => hname.ne (by decide) (String.toList_inj.mp h : name = "")
    have hhere : name.toList ≠ ['.'] :=
      fun h => hname.ne (by decide) (String.toList_inj.mp h : name = ".")
    simp [Path.isIdle, hempty, hhere]
  simp only [Path.parent?, hcut, Path.dropIdle, List.dropWhile_cons, hidle]
  rfl

/-- The directory is made, and the draft is refused. -/
theorem save_ends (hname : IsOverlong name) :
    (save ("d/" ++ name) 1 .blank).Ends Unlinks ⟨[], []⟩
      (.error (.write (draftPath ("d/" ++ name) 1) .nameTooLong))
      ⟨[(["d"], .directory)], []⟩ := by
  have hclimb : Path.climb "d" = ["d"] := by decide +kernel
  have hmade : Disk.makeDirectory ⟨[], []⟩ "d" = .ok ⟨[(["d"], .directory)], []⟩ := by
    decide +kernel
  simp only [save, hname.parent?, hclimb]
  refine ⟨.ok (), _, hmade, .error .nameTooLong, _, rfl, .error .nameTooLong, _,
    ⟨⟨rfl, fun hreply => ?_⟩, fun after hremoved => ?_⟩, rfl, rfl⟩
  · exact absurd (Except.error.inj hreply) (by decide)
  · -- there is no file to be removed
    obtain ⟨location, content, isProgram, -, hnode, -⟩ := Disk.remove_eq_ok hremoved
    unfold Disk.node? at hnode
    split at hnode
    next => exact absurd hnode (by simp)
    next =>
      rw [List.lookup_cons, List.lookup_nil] at hnode
      split at hnode <;> exact absurd hnode (by simp)

end IsOverlong

theorem notMem_ofList_replicate {c other : Char} (hne : c ≠ other) (n : ℕ) :
    c ∉ (String.ofList (List.replicate n other)).toList := by
  rw [String.toList_ofList, List.mem_replicate]
  exact fun hmem => hne hmem.2

/-- A name with one character more than a directory takes. -/
def longName : String :=
  String.ofList (List.replicate 256 'x')

theorem utf8ByteSize_longName : longName.utf8ByteSize = 256 := by decide +kernel

theorem isOverlong_longName : IsOverlong longName where
  long := by
    rw [utf8ByteSize_longName]
    decide
  short := by
    rw [utf8ByteSize_longName]
    decide
  slash := notMem_ofList_replicate (by decide) 256
  null := notMem_ofList_replicate (by decide) 256

/-- That the path is firm is needed: it must not step back from a missing directory, and no name
behind one must be too long. -/
theorem answers_change_with_directories :
    (¬ ∀ (path : String) (process : ℕ) (before after : Disk) (calls : List Call),
      (∀ segment ∈ Disk.segments path, segment.utf8ByteSize ≤ Disk.nameLimit) →
      Calls path process before calls after → before.Rooted →
      before.read path = .error .notFound →
      ∀ early call late, calls = early ++ call :: late → call.IsAnswered (stored early)) ∧
    ¬ ∀ (path : String) (process : ℕ) (before after : Disk) (calls : List Call),
      ".." ∉ Disk.segments path →
      Calls path process before calls after → before.Rooted →
      before.read path = .error .notFound →
      ∀ early call late, calls = early ++ call :: late → call.IsAnswered (stored early) := by
  constructor
  · intro hclaim
    have hends := Plan.ends_run unlinks_fullDisk (save "d/../state.json" 1 .blank)
      ⟨[(["state.json"], .file [] false)], []⟩
    have hfails : ((save "d/../state.json" 1 .blank).run fullDisk
        ⟨[(["state.json"], .file [] false)], []⟩).1 = .error (.write "d/../.state.json.1.tmp"
          (.other 28 "No space left on device")) := by
      decide +kernel
    rw [hfails] at hends
    obtain ⟨calls, hcalls, hwrong⟩ := exists_calls_of_save hends (by decide +kernel)
    exact hwrong (hclaim _ _ _ _ _ (by decide +kernel) hcalls (by decide +kernel)
      (by decide +kernel))
  · intro hclaim
    obtain ⟨name, hname⟩ : ∃ name, IsOverlong name := ⟨longName, isOverlong_longName⟩
    have hup : ".." ∉ Disk.segments ("d/" ++ name) := by
      rw [hname.segments, List.mem_pair, not_or]
      exact ⟨by decide, (hname.ne (by decide)).symm⟩
    have hnone : Disk.read ⟨[], []⟩ ("d/" ++ name) = .error .notFound := by
      rw [Disk.read_eq_notFound_iff, hname.find]
      rfl
    have hread : Disk.read ⟨[(["d"], .directory)], []⟩ ("d/" ++ name) ≠ .error .notFound := by
      rw [ne_eq, Disk.read_eq_notFound_iff, hname.find]
      have henter : Disk.enter ⟨[(["d"], .directory)], []⟩ [] "d" = .ok ["d"] := by decide +kernel
      rw [Disk.seek_cons_of_enter henter]
      have hchild : Disk.child? ⟨[(["d"], .directory)], []⟩ ["d"] name = .error .nameTooLong :=
        if_pos hname.long
      have hhere : name ≠ "." := hname.ne (by decide)
      have hback : name ≠ ".." := hname.ne (by decide)
      simp [Disk.seek, Disk.followSegments, Disk.resolve, hhere, hback, hchild, bind, Except.bind]
    obtain ⟨calls, hcalls, hwrong⟩ := exists_calls_of_save hname.save_ends hread
    exact hwrong (hclaim _ _ _ _ _ hup hcalls (by decide +kernel) hnone)

end ServiceWatch.Store
