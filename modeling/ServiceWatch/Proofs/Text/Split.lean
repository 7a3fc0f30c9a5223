import Mathlib.Data.List.Basic
import ServiceWatch.Text.Split

/-!
# Pieces between separators

`splitWhere` is `List.splitOnP`, written so that it computes.  Its properties are those of the
library function.
-/

namespace ServiceWatch.Text

theorem splitWhere_eq_splitOnP (isSeparator : Char → Bool) (cs : List Char) :
    splitWhere isSeparator cs = cs.splitOnP isSeparator := by
  induction cs with
  | nil => rfl
  | cons c cs ih =>
      rw [splitWhere, ih, List.splitOnP_cons_eq_if_modifyHead]
      by_cases hseparator : isSeparator c = true
      · simp [hseparator]
      · cases hpieces : cs.splitOnP isSeparator with
        | nil => exact absurd hpieces (List.splitOnP_ne_nil isSeparator cs)
        | cons piece pieces => simp [hseparator]

theorem splitOn_eq (separator : Char) (cs : List Char) :
    splitOn separator cs = cs.splitOn separator :=
  splitWhere_eq_splitOnP (· == separator) cs

/-- Whatever stands in pieces put together stands in a piece or between them. -/
theorem mem_of_mem_intercalate {α : Type} {separator : List α} {pieces : List (List α)} {a : α}
    (hmem : a ∈ separator.intercalate pieces) : a ∈ separator ∨ ∃ piece ∈ pieces, a ∈ piece := by
  induction pieces with
  | nil => simp at hmem
  | cons piece pieces ih =>
      cases pieces with
      | nil => exact Or.inr ⟨piece, List.mem_cons_self, by simpa using hmem⟩
      | cons next rest =>
          rw [List.intercalate_cons_cons, List.mem_append, List.mem_append] at hmem
          rcases hmem with (hpiece | hseparator) | hrest
          · exact Or.inr ⟨piece, List.mem_cons_self, hpiece⟩
          · exact Or.inl hseparator
          · obtain hseparator | ⟨other, hother, hmem⟩ := ih hrest
            · exact Or.inl hseparator
            · exact Or.inr ⟨other, List.mem_cons_of_mem _ hother, hmem⟩

theorem mem_intercalate_of_mem {α : Type} {separator : List α} {pieces : List (List α)}
    {piece : List α} {a : α} (hpiece : piece ∈ pieces) (hmem : a ∈ piece) :
    a ∈ separator.intercalate pieces := by
  induction pieces with
  | nil => exact absurd hpiece List.not_mem_nil
  | cons first rest ih =>
      cases rest with
      | nil =>
          rw [List.mem_singleton.mp hpiece] at hmem
          simpa using hmem
      | cons next rest =>
          rw [List.intercalate_cons_cons, List.mem_append, List.mem_append]
          rcases List.mem_cons.mp hpiece with rfl | hrest
          · exact Or.inl (Or.inl hmem)
          · exact Or.inr (ih hrest)

theorem not_mem_of_mem_splitOn {separator : Char} {cs piece : List Char}
    (hpiece : piece ∈ splitOn separator cs) : separator ∉ piece := by
  unfold splitOn at hpiece
  induction cs generalizing piece with
  | nil =>
      rw [List.mem_singleton.mp hpiece]
      exact List.not_mem_nil
  | cons c cs ih =>
      rw [splitWhere] at hpiece
      by_cases hseparator : c = separator
      · rw [if_pos (by simpa using hseparator)] at hpiece
        rcases List.mem_cons.mp hpiece with rfl | hrest
        · exact List.not_mem_nil
        · exact ih hrest
      · rw [if_neg (by simpa using hseparator)] at hpiece
        have hne : separator ≠ c := fun heq => hseparator heq.symm
        cases hpieces : splitWhere (· == separator) cs with
        | nil =>
            simp only [hpieces, List.mem_singleton] at hpiece
            simp [hpiece, hne]
        | cons first rest =>
            simp only [hpieces, List.mem_cons] at hpiece ih
            rcases hpiece with rfl | hrest
            · simp [hne, ih (Or.inl rfl)]
            · exact ih (Or.inr hrest)

end ServiceWatch.Text
