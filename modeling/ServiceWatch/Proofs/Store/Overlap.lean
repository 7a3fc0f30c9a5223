import ServiceWatch.Proofs.Store.Load
import ServiceWatch.Proofs.Store.Save

/-!
# Processes that share the file

Any number of processes save, forget and read at one path, under numbers of their own.  Their
requests are made in any order, each of them may fail, and a process may stop for good between any
two.  At every moment the path has what the last effect left there (`standing`): the whole document
of a save that moved its draft into place, or nothing behind a removal, and as long as there was no
effect what stood there from the start (`overlapping_operations`).

## Strategy

What a process requests is permitted by a contract (`taskContract`): a save prepares its own draft
or moves a whole document into place, and the others only read or remove the file.  A process relies
on one thing, that its draft keeps its content.  Drafts are apart from each other and from the file,
so the contracts are compatible, and what is said about the path is an invariant of the steps that
they permit (`stands_step`).
-/

namespace ServiceWatch.Store

open Disk (Action Apart MayFail)
open Plan (Behaviour Contract Move Overlaps Worker)

variable {path : String} {number : ℕ} {before disk after : Disk}

/-! ### Processes -/

/-- What a process may do with the file. -/
inductive Operation where
  | save (memory : Memory)
  | clear
  | read

def Operation.Reply : Operation → Type
  | .save _ => Except Fault Unit
  | .clear => Except Fault Bool
  | .read => Except Fault (Option Memory)

/-- The file as processes see it. -/
def operations : Interface := ⟨Operation, Operation.Reply⟩

/-- A step of an operation. -/
structure Task where
  operation : Operation
  action : Action

/-- The file system as the steps of operations see it. -/
def tasks : Interface := ⟨Task, fun task => task.action.Reply⟩

def mayFail : Behaviour tasks Disk := fun disk task => MayFail disk task.action

/-- The actions of a plan as steps of an operation. -/
def steps {α : Type} (operation : Operation) (plan : FilePlan α) : Plan tasks α :=
  plan.refine fun action => .request (I := tasks) ⟨operation, action⟩

/-- How a process carries out an operation. -/
def Operation.perform (path : String) (number : ℕ) :
    (operation : Operation) → Plan tasks operation.Reply
  | .save memory => steps (.save memory) (Store.save path number memory)
  | .clear => steps .clear (Store.clear path)
  | .read => steps .read (Store.read path)

/-- A process: its number, and the operations that it goes through. -/
def process (path : String) (number : ℕ) (program : Plan operations Unit) : Worker tasks where
  number := number
  plan := program.refine (Operation.perform path number)

/-! ### What a process may request -/

/-- The step belongs to its operation. -/
def Permits (path : String) (number : ℕ) (disk : Disk) (task : Task) : Prop :=
  match task.operation with
  | .save memory => Asks path (draftPath path number) (encode memory) disk task.action
  | .clear => task.action = .remove path
  | .read => task.action = .read path

/-- A process relies on its draft, and requests what belongs to its operations. -/
def taskContract (path : String) (number : ℕ) : Contract tasks Disk where
  rely := fun before after => ∀ content, before.read (draftPath path number) = .ok content →
    after.read (draftPath path number) = .ok content
  asks := Permits path number
  refl := fun _ _ => id
  trans := fun _ _ _ hfirst hsecond content hread => hsecond content (hfirst content hread)

/-- The surroundings of a save among other processes. -/
def Surroundings.crowded (path : String) (number : ℕ) :
    Surroundings path (draftPath path number) where
  rely := (taskContract path number).rely
  drift := fun _ _ => True
  refl := (taskContract path number).refl
  trans := (taskContract path number).trans
  leaves := fun _ _ content hrely => hrely content
  drift_rely := fun _ _ _ _ _ => trivial
  drift_spares := fun _ _ _ _ _ => trivial

/-- The steps of an operation keep the contract of a process if the plan keeps a contract that
relies on as much and asks for what belongs to the operation. -/
theorem steps_keeps {α : Type} {operation : Operation} {own : Contract Disk.files Disk}
    (hrely : ∀ before after, (taskContract path number).rely before after → own.rely before after)
    (hasks : ∀ disk action, own.asks disk action → Permits path number disk ⟨operation, action⟩)
    {plan : FilePlan α} {post : α → Disk → Prop} (hkeeps : plan.Keeps MayFail own before post) :
    (steps operation plan).Keeps mayFail (taskContract path number) before fun _ _ => True := by
  -- on the plan, since a labelled plan asks one request for one
  induction plan generalizing before with
  | done result => exact fun _ _ => trivial
  | ask action next ih =>
      intro between hbetween
      obtain ⟨hasked, hnext⟩ := hkeeps between (hrely before between hbetween)
      refine ⟨hasks between action hasked, ?_⟩
      intro reply after hreply
      exact ih reply (hnext reply after hreply)

theorem perform_keeps (path : String) (number : ℕ) (operation : Operation) (before : Disk) :
    (operation.perform path number).Keeps mayFail (taskContract path number) before
      fun _ _ => True := by
  cases operation with
  | save memory =>
      have hdrift : (Surroundings.crowded path number).drift before before := trivial
      exact steps_keeps (fun _ _ => id) (fun _ _ => id)
        (save_keeps (Surroundings.crowded path number) memory hdrift)
  | clear =>
      intro between _
      refine ⟨rfl, ?_⟩
      rintro (refusal | done) after _
      · cases refusal <;> exact fun _ _ => trivial
      · exact fun _ _ => trivial
  | read =>
      intro between _
      exact ⟨rfl, fun _ _ _ _ _ => trivial⟩

/-! ### What a step does -/

/-- What a step leaves at the path when it takes effect there: a save has moved its document into
place, or the file was removed. -/
def effect? : Move tasks → Option (Option (List UInt8))
  | ⟨_, ⟨.save memory, .rename _ _⟩, .ok ()⟩ => some (some (encode memory))
  | ⟨_, ⟨.clear, .remove _⟩, .ok ()⟩ => some none
  | _ => none

/-- **What a step can do**: it has no effect and changes its own draft at most, it publishes a
document, or it removes the file. -/
theorem effect_cases {task : Task} {reply : task.action.Reply}
    (hpermits : Permits path number disk task) (hreply : MayFail disk task.action reply after) :
    effect? ⟨number, task, reply⟩ = none ∧ Spares path {draftPath path number} disk after ∨
      (∃ memory, effect? ⟨number, task, reply⟩ = some (some (encode memory)) ∧
        Publishes path (draftPath path number) (encode memory) disk after) ∨
      effect? ⟨number, task, reply⟩ = some none ∧ disk.remove path = .ok after := by
  obtain ⟨operation, action⟩ := task
  have hrefl := Spares.refl path {draftPath path number} disk
  cases operation with
  | save memory =>
      rcases hpermits with hprepares | ⟨rfl, hdraft⟩
      · -- what prepares a draft is no move
        refine Or.inl ⟨?_, spares_of_prepares hprepares hreply⟩
        cases action with
        | rename source target => exact absurd hprepares id
        | _ => simp [effect?]
      · cases reply with
        | ok done => exact Or.inr (Or.inl ⟨memory, rfl, hdraft, hreply⟩)
        | error refusal =>
            obtain rfl : after = disk := hreply
            exact Or.inl ⟨rfl, hrefl⟩
  | clear =>
      obtain rfl : action = .remove path := hpermits
      cases reply with
      | ok done => exact Or.inr (Or.inr ⟨rfl, hreply.1⟩)
      | error refusal =>
          obtain rfl : after = disk := hreply.1
          exact Or.inl ⟨rfl, hrefl⟩
  | read =>
      obtain rfl : action = .read path := hpermits
      exact Or.inl ⟨by simp [effect?], hreply.2 ▸ hrefl⟩

/-- Every step leaves all alone but the file and its own draft. -/
theorem spares_of_permits {task : Task} {reply : task.action.Reply}
    (hpermits : Permits path number disk task) (hreply : MayFail disk task.action reply after) :
    Spares path {path, draftPath path number} disk after := by
  rcases effect_cases hpermits hreply with ⟨-, hspares⟩ | ⟨memory, -, hpublishes⟩ | ⟨-, hremoved⟩
  · exact hspares.mono (by simp)
  · exact hpublishes.spares (apart_draftPath path number)
  · exact (spares_remove hremoved).mono (by simp)

/-- Processes with different numbers do not disturb each other. -/
theorem areCompatible_taskContract (path : String) :
    Plan.AreCompatible mayFail (taskContract path) := by
  intro number other state task reply after hne hpermits hreply content hread
  refine (spares_of_permits hpermits hreply).read ?_ hread
  -- the draft of one process is neither the file nor the draft of another
  rintro target (rfl | rfl)
  · exact (apart_draftPath target other).symm
  · exact apart_draftPaths hne.symm path

/-! ### What stands at the path -/

/-- The path leads somewhere, and this is the content there. -/
def Holds (disk : Disk) (path : String) (content : Option (List UInt8)) : Prop :=
  ∃ location, disk.Names path location ∧ disk.fileAt? location = content

variable {content : Option (List UInt8)}

theorem Holds.contentOf? (hholds : Holds disk path content) : disk.contentOf? path = content := by
  obtain ⟨location, hnames, hcontent⟩ := hholds
  rw [Disk.contentOf?_of_names hnames, hcontent]

theorem Holds.of_spares (hholds : Holds disk path content)
    (hspares : Spares path {draftPath path number} disk after) : Holds after path content := by
  obtain ⟨location, hnames, hcontent⟩ := hholds
  have hlater := hnames.extends hspares.grows.keeps
  exact ⟨location, hlater, (hspares.fileAt?_eq apart_of_mem_draft hlater).trans hcontent⟩

/-- What the last effect left at the path. -/
def standing (moves : List (Move tasks)) : Option (Option (List UInt8)) :=
  (moves.filterMap effect?).getLast?

theorem standing_append (moves : List (Move tasks)) (move : Move tasks) :
    standing (moves ++ [move]) = (effect? move).or (standing moves) := by
  unfold standing
  rw [List.filterMap_append, List.getLast?_append]
  cases heffect : effect? move <;> simp [heffect]

theorem eq_of_effect?_eq_some_some {move : Move tasks} {bytes : List UInt8}
    (heffect : effect? move = some (some bytes)) : ∃ number memory source target,
      move = ⟨number, ⟨.save memory, .rename source target⟩, .ok ()⟩ ∧ bytes = encode memory := by
  unfold effect? at heffect
  split at heffect
  next number memory source target =>
    exact ⟨number, memory, source, target, rfl, by simpa using heffect.symm⟩
  next => exact absurd heffect (by simp)
  next => exact absurd heffect (by simp)

/-- A document that stands was moved into place by a save. -/
theorem exists_move_of_standing {moves : List (Move tasks)} {bytes : List UInt8}
    (hstanding : standing moves = some (some bytes)) :
    ∃ number memory source target,
      (⟨number, ⟨.save memory, .rename source target⟩, .ok ()⟩ : Move tasks) ∈ moves ∧
        bytes = encode memory := by
  obtain ⟨move, hmem, heffect⟩ := List.mem_filterMap.mp (List.mem_of_getLast? hstanding)
  obtain ⟨number, memory, source, target, rfl, hbytes⟩ := eq_of_effect?_eq_some_some heffect
  exact ⟨number, memory, source, target, hmem, hbytes⟩

/-- The path holds what the last effect left there, and without an effect all is as it was but for
drafts. -/
def Stands (path : String) (before : Disk) (moves : List (Move tasks)) (disk : Disk) : Prop :=
  match standing moves with
  | some content => Holds disk path content
  | none => Spares path (Set.range (draftPath path)) before disk

/-- **What a contract permits keeps what stands at the path.** -/
theorem stands_step {moves : List (Move tasks)} {task : Task} {reply : task.action.Reply}
    (hstands : Stands path before moves disk) (hpermits : Permits path number disk task)
    (hreply : MayFail disk task.action reply after) :
    Stands path before (moves ++ [⟨number, task, reply⟩]) after := by
  unfold Stands at hstands ⊢
  rw [standing_append]
  rcases effect_cases hpermits hreply with ⟨heffect, hspares⟩ | ⟨memory, heffect, hpublishes⟩ |
    ⟨heffect, hremoved⟩
  · -- only a draft may have changed, so what stood still stands
    rw [heffect, Option.none_or]
    cases hlast : standing moves with
    | some content =>
        rw [hlast] at hstands
        exact hstands.of_spares hspares
    | none =>
        rw [hlast] at hstands
        exact hstands.trans (hspares.mono (by simp))
  · rw [heffect]
    exact Disk.read_eq_ok_iff_fileAt?.mp (hpublishes.read (apart_draftPath path number))
  · rw [heffect]
    exact fileAt?_of_remove hremoved

/-- The disk shows at the path what the last effect left there, and without an effect what stood
there from the start. -/
def Shows (path : String) (before : Disk) (moves : List (Move tasks)) (disk : Disk) : Prop :=
  match standing moves with
  | some content => disk.contentOf? path = content
  | none =>
    (∀ bytes, disk.contentOf? path = some bytes →
      ∃ location, disk.Names path location ∧ before.fileAt? location = some bytes) ∧
      (before.Rooted → before.Steady path → disk.contentOf? path = before.contentOf? path)

theorem Shows.contentOf? {moves : List (Move tasks)} (hshows : Shows path before moves disk)
    (hlast : standing moves = some content) : disk.contentOf? path = content := by
  unfold Shows at hshows
  rwa [hlast] at hshows

theorem Stands.shows {moves : List (Move tasks)} (hstands : Stands path before moves disk) :
    Shows path before moves disk := by
  unfold Stands at hstands
  unfold Shows
  cases hlast : standing moves with
  | some content =>
      rw [hlast] at hstands
      exact hstands.contentOf?
  | none =>
      rw [hlast] at hstands
      constructor
      · intro bytes hbytes
        exact hstands.stood apart_of_mem_range (Disk.contentOf?_eq_some_iff.mp hbytes)
      · intro hrooted hsteady
        apply Option.ext
        intro bytes
        rw [Disk.contentOf?_eq_some_iff, Disk.contentOf?_eq_some_iff]
        exact hstands.read_iff apart_of_mem_range hrooted hsteady

/-! ### All processes together -/

/-- A process writes to its own draft only, moves nothing but that into place, and removes nothing
but that and the file. -/
def Confined (path : String) (number : ℕ) : Action → Prop
  | .read target => target = path
  | .makeDirectory directory | .isDirectory directory => directory ∈ enclosing path
  | .create target | .append target _ | .sync target => target = draftPath path number
  | .rename source target => source = draftPath path number ∧ target = path
  | .remove target => target = draftPath path number ∨ target = path

theorem confined_of_permits {task : Task} (hpermits : Permits path number disk task) :
    Confined path number task.action := by
  obtain ⟨operation, action⟩ := task
  cases operation with
  | save memory =>
      rcases hpermits with hprepares | ⟨rfl, -⟩
      · cases action with
        | read target => exact absurd hprepares id
        | rename source target => exact absurd hprepares id
        | remove target => exact Or.inl hprepares
        | _ => exact hprepares
      · exact ⟨rfl, rfl⟩
  | clear =>
      obtain rfl : action = .remove path := hpermits
      exact Or.inr rfl
  | read =>
      obtain rfl : action = .read path := hpermits
      exact rfl

/-- A reply to a reader tells what is at the path, if it is not a refusal. -/
theorem contentOf?_of_reply {reply : Except SystemError (List UInt8)}
    (hreply : MayFail disk (.read path) reply after) :
    (∀ bytes, reply = .ok bytes → disk.contentOf? path = some bytes) ∧
      (reply = .error .notFound → disk.contentOf? path = none) := by
  obtain ⟨rfl | ⟨refusal, hrefusal, rfl⟩, -⟩ := hreply
  · refine ⟨fun bytes => Disk.contentOf?_eq_some_iff.mpr, ?_⟩
    intro habsent
    rw [Option.eq_none_iff_forall_ne_some]
    intro bytes hbytes
    rw [Disk.contentOf?_eq_some_iff, habsent] at hbytes
    exact absurd hbytes (by simp)
  · refine ⟨fun bytes hbytes => absurd hbytes (by simp), ?_⟩
    intro habsent
    exact absurd (Except.error.inj habsent) hrefusal

def processes (path : String) (programs : List (ℕ × Plan operations Unit)) :
    List (Worker tasks) :=
  programs.map fun program => process path program.1 program.2

section Overlapping

variable {programs : List (ℕ × Plan operations Unit)} {moves : List (Move tasks)}
  {workers : List (Worker tasks)}

theorem keeps_processes (path : String) (programs : List (ℕ × Plan operations Unit))
    (before : Disk) :
    ∀ worker ∈ processes path programs,
      worker.plan.Keeps mayFail (taskContract path worker.number) before fun _ _ => True := by
  intro worker hmem
  obtain ⟨program, -, rfl⟩ := List.mem_map.mp hmem
  exact Plan.keeps_refine (perform_keeps path program.1) program.2 before

theorem nodup_processes (hnodup : (programs.map Prod.fst).Nodup) :
    ((processes path programs).map Worker.number).Nodup := by
  simpa [processes, process, Function.comp_def] using hnodup

theorem stands_of_overlaps (hnodup : (programs.map Prod.fst).Nodup)
    (hoverlaps : Overlaps mayFail (processes path programs) before moves workers disk) :
    Stands path before moves disk :=
  hoverlaps.invariant (nodup_processes hnodup) (areCompatible_taskContract path)
    (keeps_processes path programs before) (Spares.refl _ _ _) fun _ _ _ _ _ _ => stands_step

/-- **Overlapping operations leave one whole document or none.**  What is at the path is what the
last effect left there, a document that a save moved there or nothing behind a removal, and without
an effect what stood there from the start.  So it was at every moment at which the file was read.
And no process ever wrote to the file or to the draft of another: it was confined to a draft that no
path of these shares a location with. -/
theorem overlapping_operations (hnodup : (programs.map Prod.fst).Nodup)
    (hoverlaps : Overlaps mayFail (processes path programs) before moves workers disk) :
    Shows path before moves disk ∧
      (∀ bytes, standing moves = some (some bytes) → ∃ number memory source target,
        (⟨number, ⟨.save memory, .rename source target⟩, .ok ()⟩ : Move tasks) ∈ moves ∧
          bytes = encode memory) ∧
      (∀ early late number reply,
        moves = early ++ ⟨number, ⟨.read, .read path⟩, reply⟩ :: late →
        ∃ between, Shows path before early between ∧
          (∀ bytes, reply = .ok bytes → between.contentOf? path = some bytes) ∧
          (reply = .error .notFound → between.contentOf? path = none)) ∧
      (∀ move ∈ moves, Confined path move.number move.request.action) ∧
      ∀ number, Apart path (draftPath path number) ∧
        ∀ other, other ≠ number → Apart (draftPath path other) (draftPath path number) := by
  refine ⟨(stands_of_overlaps hnodup hoverlaps).shows, fun bytes => exists_move_of_standing, ?_, ?_,
    fun number => ⟨apart_draftPath path number, fun other hne => apart_draftPaths hne path⟩⟩
  · -- the file was read at a moment of its own, and what is said holds at every moment
    intro early late number reply hmoves
    obtain ⟨_, between, _, _, hearlier, -, hreply⟩ := hoverlaps.moment hmoves
    exact ⟨between, (stands_of_overlaps hnodup hearlier).shows, contentOf?_of_reply hreply⟩
  · intro move hmem
    obtain ⟨early, late, hmoves⟩ := List.append_of_mem hmem
    obtain ⟨_, between, _, _, hearlier, hworker, -⟩ := hoverlaps.moment hmoves
    exact confined_of_permits (hearlier.asks (nodup_processes hnodup)
      (areCompatible_taskContract path) (keeps_processes path programs before) hworker)

end Overlapping

def saving (memory : Memory) : Plan operations Unit :=
  .ask (I := operations) (.save memory) fun _ => .done ()

def reading : Plan operations Unit :=
  .ask (I := operations) .read fun _ => .done ()

def handleTask (task : Task) : StateM Disk task.action.Reply :=
  Disk.handle task.action

/-- The processes take turns in this order on a disk that fails nothing. -/
def takeTurns (path : String) (programs : List (ℕ × Plan operations Unit)) (before : Disk)
    (schedule : List ℕ) : Plan.Progress tasks Disk :=
  Plan.play (I := tasks) handleTask (processes path programs) before schedule

theorem overlaps_takeTurns (path : String) (programs : List (ℕ × Plan operations Unit))
    (before : Disk) (schedule : List ℕ) :
    Overlaps mayFail (processes path programs) before
      (takeTurns path programs before schedule).moves
      (takeTurns path programs before schedule).workers
      (takeTurns path programs before schedule).state := by
  apply Plan.overlaps_play
  intro disk task
  exact Disk.Allows.mayFail (Disk.allows_perform disk task.action)

def savers : List (ℕ × Plan operations Unit) :=
  [(1, saving .blank), (2, saving { updated := some 7 }), (3, reading)]

/-- The savers go step by step, and the reader comes in between the two moves. -/
def inTurn : Plan.Progress tasks Disk :=
  takeTurns "state.json" savers ⟨[], []⟩ [0, 1, 0, 1, 0, 1, 0, 2, 1]

/-- The document that was moved last stands. -/
theorem overlapping_savers :
    (savers.map Prod.fst).Nodup ∧
      Overlaps mayFail (processes "state.json" savers) ⟨[], []⟩ inTurn.moves inTurn.workers
        inTurn.state ∧
      standing inTurn.moves = some (some (encode { updated := some 7 })) ∧
      inTurn.state.contentOf? "state.json" = some (encode { updated := some 7 }) := by
  have hnodup : (savers.map Prod.fst).Nodup := by decide
  have hoverlaps : Overlaps mayFail (processes "state.json" savers) ⟨[], []⟩ inTurn.moves
      inTurn.workers inTurn.state := overlaps_takeTurns _ _ _ _
  have hstanding : standing inTurn.moves = some (some (encode { updated := some 7 })) := by
    decide +kernel
  obtain ⟨hshows, -⟩ := overlapping_operations hnodup hoverlaps
  exact ⟨hnodup, hoverlaps, hstanding, hshows.contentOf? hstanding⟩

/-- A saver that stops once it has made the directory that its path steps back from. -/
def stopped : Plan.Progress tasks Disk :=
  takeTurns "b/../state.json" [(1, saving .blank)] ⟨[(["state.json"], .file [] false)], []⟩ [0, 0]

/-- That the path is steady is needed: nothing stood at the path, no document was moved there, and
yet there is one. -/
theorem content_appears_steppingBack :
    ¬ ∀ (path : String) (programs : List (ℕ × Plan operations Unit)) (before disk : Disk)
        (moves : List (Move tasks)) (workers : List (Worker tasks)),
      (programs.map Prod.fst).Nodup → Overlaps mayFail (processes path programs) before moves
        workers disk → before.Rooted →
      disk.contentOf? path = none ∨ disk.contentOf? path = before.contentOf? path ∨
        ∃ move ∈ moves, ∃ memory source target,
          move.request = ⟨.save memory, .rename source target⟩ ∧
            disk.contentOf? path = some (encode memory) := by
  intro hclaim
  have hrooted : Disk.Rooted ⟨[(["state.json"], .file [] false)], []⟩ := by decide +kernel
  have hoverlaps := overlaps_takeTurns "b/../state.json" [(1, saving .blank)]
    ⟨[(["state.json"], .file [] false)], []⟩ [0, 0]
  have hbefore : Disk.contentOf? ⟨[(["state.json"], .file [] false)], []⟩ "b/../state.json" =
      none := by
    decide +kernel
  have hthere : stopped.state.contentOf? "b/../state.json" = some [] := by decide +kernel
  have hunmoved : stopped.moves.all (fun move => !(move.request.action matches .rename ..)) =
      true := by
    decide +kernel
  rcases hclaim _ _ _ _ _ _ (by simp) hoverlaps hrooted with hnone | hsame | ⟨move, hmem, hmoved⟩
  · exact absurd (hthere.symm.trans hnone) (by simp)
  · exact absurd (hthere.symm.trans (hsame.trans hbefore)) (by simp)
  · obtain ⟨memory, source, target, hrequest, -⟩ := hmoved
    have hno := List.all_eq_true.mp hunmoved move hmem
    rw [hrequest] at hno
    exact absurd hno (by simp)

end ServiceWatch.Store
