import ServiceWatch.Proofs.Memory.Json
import ServiceWatch.Proofs.Store.Load
import ServiceWatch.Proofs.Store.Save

/-!
# What is loaded after a save

A save that succeeds leaves the document of the memory at the path, and reading it back gives the
memory with its counters reread.  Where the counters are whole numbers in the safe range nothing is
lost: the very memory that was saved is loaded (`loads_saved`).  The range cannot be extended by a
single number, since the next one is reread as another.
-/

namespace ServiceWatch.Store

open Disk (Allows)

variable {path : String} {process : ℕ} {memory : Memory} {before after : Disk}

/-- Reading and loading give the memory of a document that is there, and change nothing. -/
theorem loads_of_read (hread : after.read path = .ok (encode memory)) :
    (∀ found last, (read path).Ends Allows after found last ↔
        found = .ok (some memory.reread) ∧ last = after) ∧
      ∀ loaded last, (load path).Ends Allows after loaded last ↔
        loaded = ⟨memory.reread, none⟩ ∧ last = after := by
  have hends := ends_of_read hread
  rw [decode_encode] at hends
  exact hends

/-- **What was saved is loaded**, without a concern, if the counters are whole numbers in the safe
range; it is also what the pretty document holds. -/
theorem loads_saved (hsafe : memory.last.AreSafe) :
    (∀ path process before after,
      (save path process memory).Ends Allows before (.ok ()) after →
        (∀ found last, (read path).Ends Allows after found last ↔
          found = .ok (some memory) ∧ last = after) ∧
        ∀ loaded last, (load path).Ends Allows after loaded last ↔
          loaded = ⟨memory, none⟩ ∧ last = after) ∧
      Memory.ofDocument (Text.Utf8.encode memory.pretty) = .ok memory := by
  have hreread := Memory.reread_of_areSafe hsafe
  constructor
  · intro path process before after hends
    have hloads := loads_of_read (save_ends (Disk.ends_mayFail hends)).read
    rwa [hreread] at hloads
  · rw [Memory.ofDocument_pretty, hreread]

/-- The greatest counters in the safe range, and the greatest time. -/
def greatestSafe : Memory where
  last :=
    { finality := some (.ofNat false 1801439850948198)
      received := some (.ofNat true 1801439850948198) }
  updated := some 0xFFFFFFFFFFFFFFFF

theorem areSafe_greatestSafe : greatestSafe.last.AreSafe where
  finality := Counters.isSafe_some false (by decide)
  received := Counters.isSafe_some true (by decide)
  verified := Counters.isSafe_none

/-- The save of these on an empty disk. -/
def saveGreatestSafe : Except Fault Unit × Disk :=
  (save "state.json" 1 greatestSafe).run Disk.handle ⟨[], []⟩

/-- An empty disk takes the memory, and gives it back. -/
theorem loads_greatestSafe :
    greatestSafe.last.AreSafe ∧
      (save "state.json" 1 greatestSafe).Ends Allows ⟨[], []⟩ (.ok ()) saveGreatestSafe.2 ∧
      (read "state.json").Ends Allows saveGreatestSafe.2 (.ok (some greatestSafe))
        saveGreatestSafe.2 ∧
      (load "state.json").Ends Allows saveGreatestSafe.2 ⟨greatestSafe, none⟩ saveGreatestSafe.2 ∧
      Memory.ofDocument (Text.Utf8.encode greatestSafe.pretty) = .ok greatestSafe := by
  have hends : (save "state.json" 1 greatestSafe).Ends Allows ⟨[], []⟩ saveGreatestSafe.1
      saveGreatestSafe.2 := Plan.ends_run Disk.allows_perform _ _
  have hdone : saveGreatestSafe.1 = .ok () := by decide +kernel
  rw [hdone] at hends
  obtain ⟨hloads, hpretty⟩ := loads_saved areSafe_greatestSafe
  obtain ⟨hread, hload⟩ := hloads _ _ _ _ hends
  exact ⟨areSafe_greatestSafe, hends, (hread _ _).mpr ⟨rfl, rfl⟩, (hload _ _).mpr ⟨rfl, rfl⟩,
    hpretty⟩

/-- The next whole number is reread as another one. -/
example : Json.reread (.ofNat false 1801439850948199) ≠ some (.ofNat false 1801439850948199) := by
  decide +kernel

end ServiceWatch.Store
