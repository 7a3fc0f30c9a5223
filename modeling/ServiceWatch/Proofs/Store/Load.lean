import ServiceWatch.Proofs.Disk.Allows
import ServiceWatch.Store

/-!
# What a run starts from, and forgetting it

Loading asks for the content of the file once and changes nothing, so the memory that a run starts
from is a function of the disk (`held`).  It is blank unless the path leads to a file that can be
decoded, and it is blank again after the file was forgotten.
-/

namespace ServiceWatch.Store

open Disk (Allows)

variable {σ : Type} {path : String} {content : List UInt8} {memory : Memory}

/-! ### Loading -/

/-- Loading is one request for the content, wherever it is carried out. -/
theorem ends_load_iff {allows : Plan.Behaviour Disk.files σ} {before after : σ} {loaded : Loaded} :
    (load path).Ends allows before loaded after ↔
      ∃ reply, allows before (.read path) reply after ∧
        loaded = .ofOutcome (ofContent path reply) := by
  constructor
  · rintro ⟨reply, between, hreply, rfl, rfl⟩
    exact ⟨reply, hreply, rfl⟩
  · rintro ⟨reply, hreply, rfl⟩
    exact ⟨reply, after, hreply, rfl, rfl⟩

theorem ofContent_error {refusal : SystemError} (hrefusal : refusal ≠ .notFound) :
    ofContent path (.error refusal) = .error (.read path refusal) := by
  cases refusal with
  | notFound => exact absurd rfl hrefusal
  | _ => rfl

variable {disk before after : Disk}

/-- **Reading and loading give what the content is decoded as**, and change nothing. -/
theorem ends_of_read (hread : disk.read path = .ok content) :
    (∀ outcome last, (read path).Ends Allows disk outcome last ↔
        outcome = (decode content).map some ∧ last = disk) ∧
      ∀ loaded last, (load path).Ends Allows disk loaded last ↔
        loaded = .ofOutcome ((decode content).map some) ∧ last = disk := by
  have hcontent : ofContent path (disk.read path) = (decode content).map some := by
    rw [hread, ofContent]
  constructor
  · intro outcome last
    constructor
    · rintro ⟨reply, between, ⟨rfl, rfl⟩, rfl, rfl⟩
      exact ⟨hcontent, rfl⟩
    · rintro ⟨rfl, rfl⟩
      exact ⟨_, last, ⟨rfl, rfl⟩, hcontent.symm, rfl⟩
  · intro loaded last
    rw [ends_load_iff]
    constructor
    · rintro ⟨reply, ⟨rfl, rfl⟩, rfl⟩
      exact ⟨by rw [hcontent], rfl⟩
    · rintro ⟨rfl, rfl⟩
      exact ⟨_, ⟨rfl, rfl⟩, by rw [hcontent]⟩

/-- The memory that the file at a path holds; a file that is absent or cannot be decoded holds
none, which is the blank memory. -/
def held (disk : Disk) (path : String) : Memory :=
  match disk.read path with
  | .ok content =>
    match decode content with
    | .ok memory => memory
    | .error _ => .blank
  | .error _ => .blank

/-- What is loaded is what is held. -/
theorem memory_ofContent_read (disk : Disk) (path : String) :
    (Loaded.ofOutcome (ofContent path (disk.read path))).memory = held disk path := by
  unfold held
  cases hread : disk.read path with
  | ok content =>
      simp only [ofContent]
      cases hdecode : decode content with
      | ok memory => rfl
      | error fault => rfl
  | error refusal =>
      by_cases habsent : refusal = .notFound
      · subst habsent
        rfl
      · rw [ofContent_error habsent]
        rfl

theorem held_of_read (hread : disk.read path = .ok content)
    (hdecode : decode content = .ok memory) : held disk path = memory := by
  simp only [held, hread, hdecode]

theorem held_eq_blank (hread : ∀ content, disk.read path ≠ .ok content) :
    held disk path = .blank := by
  unfold held
  cases hreply : disk.read path with
  | ok content => exact absurd hreply (hread content)
  | error refusal => rfl

/-- Why reading fails makes no difference to what is held. -/
theorem held_congr
    (hsame : ∀ content, after.read path = .ok content ↔ before.read path = .ok content) :
    held after path = held before path := by
  cases hbefore : before.read path with
  | ok content => simp only [held, hbefore, (hsame content).mpr hbefore]
  | error refusal =>
      have hnone : ∀ content, before.read path ≠ .ok content := by
        intro content hread
        rw [hbefore] at hread
        exact absurd hread (by simp)
      have hnone' : ∀ content, after.read path ≠ .ok content := by
        intro content hread
        exact hnone content ((hsame content).mp hread)
      rw [held_eq_blank hnone, held_eq_blank hnone']

/-! ### Forgetting -/

theorem fileAt?_of_remove (hdone : before.remove path = .ok after) :
    ∃ location, after.Names path location ∧ after.fileAt? location = none := by
  have hkeeps := (Disk.grows_remove hdone).keeps
  obtain ⟨location, removed, isProgram, hnames, -, rfl⟩ := Disk.remove_eq_ok hdone
  refine ⟨location, hnames.extends hkeeps, ?_⟩
  rw [Disk.fileAt?, Disk.node?_drop hnames.ne_nil, if_pos rfl]

theorem not_read_of_remove (hdone : before.remove path = .ok after) (content : List UInt8) :
    after.read path ≠ .ok content := by
  rw [Disk.read_of_remove hdone]
  simp

/-- **Forgetting leaves no content at the path, or fails and changes nothing.** -/
theorem clear_ends {outcome : Except Fault Bool}
    (hends : (clear path).Ends Allows before outcome after) :
    (∃ existed, outcome = .ok existed ∧ ∀ content, after.read path ≠ .ok content) ∨
      ∃ fault, outcome = .error fault ∧ after = before := by
  obtain ⟨reply, between, ⟨hsettle, htruth⟩, hrest⟩ := hends
  cases reply with
  | ok done =>
      obtain ⟨rfl, rfl⟩ := hrest
      exact Or.inl ⟨true, rfl, not_read_of_remove hsettle⟩
  | error refusal =>
      obtain rfl : between = before := hsettle
      by_cases habsent : refusal = .notFound
      · subst habsent
        obtain ⟨rfl, rfl⟩ := hrest
        -- that there is no file has to be true, and a file that is read could be removed
        refine Or.inl ⟨false, rfl, ?_⟩
        intro content hread
        obtain ⟨next, hremove⟩ := Disk.exists_remove_of_read hread
        rw [htruth rfl] at hremove
        exact absurd hremove (by simp)
      · have hfailed : outcome = .error (.write path refusal) ∧ after = between := by
          cases refusal with
          | notFound => exact absurd rfl habsent
          | _ => exact hrest
        exact Or.inr ⟨_, hfailed⟩

end ServiceWatch.Store
