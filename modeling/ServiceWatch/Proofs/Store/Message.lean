import ServiceWatch.Proofs.Json.Refusal
import ServiceWatch.Proofs.Path
import ServiceWatch.Proofs.Plan
import ServiceWatch.Store

/-!
# What is told of a fault of the file

A fault names a path and tells why the file system refused an action, or why the content of the file
is no memory.  The paths are that of the file, its parent and its draft, which have no line feed if
the path of the file has none (`isLine_draftPath`).  So where the file system itself gives its
reasons in one line (`RefusesInLine`), every fault is told in one line, whatever the file holds and
whichever step of a save is refused (`failsInLine_save`).
-/

namespace ServiceWatch

open Text (IsLine isLine_append isLine_toString)

/-! ### The content of the file -/

theorem Counters.tellsLine_record : Counters.record.TellsLine where
  expected := by decide
  names := by decide
  read := by
    have hcounter : ∀ set counters s, Json.TellsLine (Counters.readCounter set counters s) :=
      fun _ _ s => (Json.tellsLine_readOptional Json.tellsLine_readBinary64 s).bind fun _ =>
        Json.tellsLine_ok _
    simp only [Counters.record, List.forall_mem_cons]
    exact ⟨hcounter _, hcounter _, hcounter _, by simp⟩

theorem Memory.tellsLine_record : Memory.record.TellsLine where
  expected := by decide
  names := by decide
  read := by
    have htime : ∀ set memory s, Json.TellsLine (Memory.readTime set memory s) :=
      fun _ _ s => (Json.tellsLine_readOptional Json.tellsLine_readUInt64 s).bind fun _ =>
        Json.tellsLine_ok _
    have hlast : ∀ memory s, Json.TellsLine (Memory.readLast memory s) := fun _ s =>
      (Counters.tellsLine_record.readRecord s).bind fun _ => Json.tellsLine_ok _
    simp only [Memory.record, List.forall_mem_cons]
    exact ⟨hlast, htime _, htime _, by simp⟩

/-- Why a document holds no memory is told in one line. -/
theorem Memory.isLine_refusal {document : Json.Input} {failure : Json.Failure}
    (hrefused : Memory.ofDocument document = .error failure) :
    IsLine (failure.message document) :=
  Memory.tellsLine_record.isLine_refusal hrefused

/-! ### Refusals of the file system -/

theorem SystemError.isLine_numbered {text : String} (htext : IsLine text) (code : ℕ) :
    IsLine (numbered text code) := by
  simp only [numbered, isLine_append, isLine_toString, htext]
  decide

/-- A refusal is told in one line, unless it has a text of its own that is none. -/
theorem SystemError.isLine_message {refusal : SystemError}
    (htext : ∀ code text, refusal = .other code text → IsLine text) : IsLine refusal.message := by
  cases refusal with
  | other code text => exact isLine_numbered (htext code text rfl) code
  | _ => decide +kernel

/-! ### Paths -/

namespace Path

variable {path name : String}

theorem lineFeed_notMem_text_iff {c : Cut} :
    '\n' ∉ c.text ↔ '\n' ∉ c.mark ∧ ∀ segment ∈ c.segments, '\n' ∉ segment := by
  rw [Cut.text, List.mem_append, not_or]
  refine and_congr_right fun _ => ⟨fun hnot segment hsegment hmem => ?_, fun hnot hmem => ?_⟩
  · exact hnot (Text.mem_intercalate_of_mem (List.mem_reverse.mpr hsegment) hmem)
  · obtain hslash | ⟨segment, hsegment, hmem⟩ := Text.mem_of_mem_intercalate hmem
    · exact absurd hslash (by decide)
    · exact hnot segment (List.mem_reverse.mp hsegment) hmem

/-- The mark and the segments of a path have no line feed if the path has none. -/
theorem lineFeed_notMem_cut (hpath : IsLine path) :
    '\n' ∉ (cut path.toList).mark ∧ ∀ segment ∈ (cut path.toList).segments, '\n' ∉ segment := by
  rw [← lineFeed_notMem_text_iff, text_cut]
  exact hpath

theorem isLine_of_parent? {outer : String} (hpath : IsLine path)
    (hparent : parent? path = some outer) : IsLine outer := by
  obtain ⟨hmark, hsegments⟩ := lineFeed_notMem_cut hpath
  unfold parent? at hparent
  dsimp only at hparent
  split at hparent
  next last before hdrop =>
    obtain rfl := Option.some.inj hparent
    rw [Text.isLine_ofList, lineFeed_notMem_text_iff]
    refine ⟨hmark, fun segment hsegment => hsegments segment ?_⟩
    have hmem : segment ∈ last :: before :=
      List.mem_cons_of_mem _ ((List.dropWhile_sublist _).subset hsegment)
    exact (List.dropWhile_sublist _).subset (hdrop ▸ hmem)
  next =>
    split_ifs at hparent
    obtain rfl := Option.some.inj hparent
    decide

theorem isLine_of_name? (hpath : IsLine path) (hname : name? path = some name) : IsLine name := by
  unfold name? at hname
  split at hname
  next last before hdrop =>
    split_ifs at hname
    obtain rfl := Option.some.inj hname
    have hmem : last ∈ dropIdle (cut path.toList).segments := hdrop ▸ List.mem_cons_self
    exact Text.isLine_ofList.mpr
      ((lineFeed_notMem_cut hpath).2 last ((List.dropWhile_sublist _).subset hmem))
  next => cases hname

theorem isLine_append_name (hpath : IsLine path) (hname : IsLine name) :
    IsLine (append path name) := by
  unfold append
  split_ifs
  · exact hname
  · exact isLine_append.mpr ⟨hpath, hname⟩
  · exact isLine_append.mpr ⟨isLine_append.mpr ⟨hpath, by decide⟩, hname⟩

theorem isLine_withName (hpath : IsLine path) (hname : IsLine name) :
    IsLine (withName path name) := by
  unfold withName
  split
  · refine isLine_append_name ?_ hname
    cases hparent : parent? path with
    | none => exact (by decide : IsLine "")
    | some outer => exact isLine_of_parent? hpath hparent
  · exact isLine_append_name hpath hname

end Path

namespace Store

open Disk (Action)

variable {σ : Type} {allows : Plan.Behaviour Disk.files σ} {path place draft whole : String}
  {refusal : SystemError} {next : FilePlan (Except Fault Unit)}

theorem isLine_draftPath (hpath : IsLine path) (process : ℕ) :
    IsLine (draftPath path process) := by
  have hname : IsLine ((Path.name? path).getD "state") := by
    cases hlast : Path.name? path with
    | none => exact (by decide : IsLine "state")
    | some name => exact Path.isLine_of_name? hpath hlast
  refine Path.isLine_withName hpath ?_
  simp only [isLine_append, hname, isLine_toString]
  decide

/-! ### Saving -/

/-- The refusal that an action is replied, if it is one. -/
def refusal? : (action : Action) → action.Reply → Option SystemError
  | .read _, .error refusal => some refusal
  | .makeDirectory _, .error refusal => some refusal
  | .create _, .error refusal => some refusal
  | .append .., .error refusal => some refusal
  | .sync _, .error refusal => some refusal
  | .rename .., .error refusal => some refusal
  | .remove _, .error refusal => some refusal
  | _, _ => none

/-- The file system has texts of one line for the refusals that it knows by a number alone. -/
def RefusesInLine (allows : Plan.Behaviour Disk.files σ) : Prop :=
  ∀ ⦃before action reply after⦄, allows before action reply after →
    ∀ ⦃code text⦄, refusal? action reply = some (.other code text) → IsLine text

theorem RefusesInLine.isLine (hallows : RefusesInLine allows) {before after : σ} {action : Action}
    {reply : action.Reply} (hreply : allows before action reply after)
    (hrefusal : refusal? action reply = some refusal) : IsLine refusal.message := by
  refine SystemError.isLine_message fun code text heq => ?_
  have hother : refusal? action reply = some (.other code text) := by rw [hrefusal, heq]
  exact hallows hreply hother

/-- Every fault that the plan may end with is told in one line. -/
def FailsInLine (allows : Plan.Behaviour Disk.files σ) (plan : FilePlan (Except Fault Unit)) :
    Prop :=
  ∀ ⦃before fault after⦄, plan.Ends allows before (.error fault) after → IsLine fault.message

theorem isLine_message_write (hplace : IsLine place) (hrefusal : IsLine refusal.message) :
    IsLine (Fault.write place refusal).message := by
  change IsLine ("write error on " ++ place ++ ": " ++ refusal.message)
  simp only [isLine_append, hplace, hrefusal]
  decide

theorem failsInLine_failed (hplace : IsLine place) (hrefusal : IsLine refusal.message) :
    FailsInLine allows (failed place refusal) := by
  rintro _ _ _ ⟨heq, -⟩
  obtain rfl := Except.error.inj heq
  exact isLine_message_write hplace hrefusal

theorem failsInLine_abandon (hplace : IsLine place) (hrefusal : IsLine refusal.message) :
    FailsInLine allows (abandon draft place refusal) := by
  rintro _ _ _ ⟨_, _, -, hends⟩
  exact failsInLine_failed hplace hrefusal hends

/-- Where a directory has been refused because something is there, it may be a directory. -/
theorem failsInLine_isDirectory {directory : String} (hwhole : IsLine whole)
    (hrefusal : IsLine refusal.message) (hnext : FailsInLine allows next) :
    FailsInLine allows (.ask (.isDirectory directory) fun
      | true => next
      | false => failed whole refusal) := by
  rintro _ _ _ ⟨answer, _, -, hends⟩
  cases answer with
  | true => exact hnext hends
  | false => exact failsInLine_failed hwhole hrefusal hends

section Saving

variable (hallows : RefusesInLine allows)

include hallows

theorem failsInLine_publish (hpath : IsLine path) : FailsInLine allows (publish path draft) := by
  rintro _ _ _ ⟨reply, _, hreply, hends⟩
  cases reply with
  | ok done => exact nomatch hends.1
  | error refusal => exact failsInLine_abandon hpath (hallows.isLine hreply rfl) hends

theorem failsInLine_write (hpath : IsLine path) (hdraft : IsLine draft) (fuel : ℕ)
    (bytes : List UInt8) : FailsInLine allows (write path draft fuel bytes) := by
  have hnothing : IsLine SystemError.nothingWritten.message := by decide
  have hnil : ∀ fuel, FailsInLine allows (write path draft fuel []) := by
    intro fuel before fault after hends
    rw [write] at hends
    obtain ⟨reply, _, hreply, hends⟩ := hends
    cases reply with
    | ok done => exact failsInLine_publish hallows hpath hends
    | error refusal => exact failsInLine_abandon hdraft (hallows.isLine hreply rfl) hends
  induction fuel generalizing bytes with
  | zero =>
      cases bytes with
      | nil => exact hnil 0
      | cons byte bytes => exact failsInLine_abandon hdraft hnothing
  | succ fuel ih =>
      cases bytes with
      | nil => exact hnil (fuel + 1)
      | cons byte bytes =>
          rintro _ _ _ ⟨reply, _, hreply, hends⟩
          cases reply with
          | ok count =>
              cases count with
              | zero => exact failsInLine_abandon hdraft hnothing hends
              | succ count => exact ih _ hends
          | error refusal => exact failsInLine_abandon hdraft (hallows.isLine hreply rfl) hends

theorem failsInLine_writeDraft (hpath : IsLine path) (hdraft : IsLine draft)
    (bytes : List UInt8) : FailsInLine allows (writeDraft path draft bytes) := by
  rintro _ _ _ ⟨reply, _, hreply, hends⟩
  cases reply with
  | ok done => exact failsInLine_write hallows hpath hdraft _ _ hends
  | error refusal => exact failsInLine_abandon hdraft (hallows.isLine hreply rfl) hends

theorem failsInLine_descend (hwhole : IsLine whole) (hnext : FailsInLine allows next)
    (directories : List String) : FailsInLine allows (descend whole next directories) := by
  induction directories with
  | nil => exact hnext
  | cons directory rest ih =>
      rintro _ _ _ ⟨reply, _, hreply, hends⟩
      cases reply with
      | ok done => exact ih hends
      | error refusal =>
          have hrefusal := hallows.isLine hreply rfl
          dsimp only at hends
          split_ifs at hends
          · exact failsInLine_isDirectory hwhole hrefusal ih hends
          · exact failsInLine_failed hwhole hrefusal hends

theorem failsInLine_climb (hwhole : IsLine whole) (hnext : FailsInLine allows next)
    (behind directories : List String) :
    FailsInLine allows (climb whole next behind directories) := by
  induction directories generalizing behind with
  | nil => exact failsInLine_descend hallows hwhole hnext behind
  | cons directory outer ih =>
      rintro _ _ _ ⟨reply, _, hreply, hends⟩
      cases reply with
      | ok done => exact failsInLine_descend hallows hwhole hnext behind hends
      | error refusal =>
          have hrefusal := hallows.isLine hreply rfl
          dsimp only at hends
          split_ifs at hends
          · exact ih _ hends
          · exact failsInLine_isDirectory hwhole hrefusal
              (failsInLine_descend hallows hwhole hnext behind) hends
          · exact failsInLine_failed hwhole hrefusal hends

/-- Whichever step of a save is refused, that is told in one line. -/
theorem failsInLine_save (hpath : IsLine path) (process : ℕ) (memory : Memory) :
    FailsInLine allows (save path process memory) := by
  have hwriting := failsInLine_writeDraft hallows hpath (isLine_draftPath hpath process)
    (encode memory)
  unfold save
  cases hparent : Path.parent? path with
  | none => exact hwriting
  | some directory =>
      exact failsInLine_climb hallows (Path.isLine_of_parent? hpath hparent) hwriting [] _

end Saving

end Store

end ServiceWatch
