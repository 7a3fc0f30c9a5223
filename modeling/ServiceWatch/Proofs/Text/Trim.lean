import Mathlib.Data.List.TakeWhile
import ServiceWatch.Proofs.Text.Blank

/-!
# The text between the blanks at its ends

A text consists of blanks, of a text with no blank at its ends, and of blanks again, and there is
one text only that can stand in the middle.  That one is what trimming leaves (`trim_eq_iff`), and
so trimming leaves a text as it is exactly if there is no blank at its ends (`trim_eq_self_iff`).

Trimming the end is trimming the start of the text read backwards, so everything is proved about
`trimStart` first.
-/

namespace ServiceWatch.Text

variable {cs trimmed before after : List Char}

/-- Neither the first nor the last character is a blank; there may be none at all. -/
structure HasBareEnds (cs : List Char) : Prop where
  first : ∀ c ∈ cs.head?, isBlank c = false
  last : ∀ c ∈ cs.getLast?, isBlank c = false

/-- The text has no blank at its ends, and with blanks around it it is the other text. -/
def Trims (cs trimmed : List Char) : Prop :=
  HasBareEnds trimmed ∧
    ∃ before after, AreBlank before ∧ AreBlank after ∧ cs = before ++ (trimmed ++ after)

theorem areBlank_reverse : AreBlank cs.reverse ↔ AreBlank cs := by
  simp [AreBlank]

/-! ### The start -/

theorem trimStart_append (hbefore : AreBlank before) (cs : List Char) :
    trimStart (before ++ cs) = trimStart cs :=
  List.dropWhile_append_of_pos hbefore

theorem trimStart_of_first (hfirst : ∀ c ∈ cs.head?, isBlank c = false) : trimStart cs = cs := by
  cases cs with
  | nil => rfl
  | cons c cs =>
      have hc : isBlank c = false := hfirst c rfl
      rw [trimStart, List.dropWhile_cons_of_neg (by simp [hc])]

theorem exists_eq_append_trimStart (cs : List Char) :
    ∃ before, AreBlank before ∧ cs = before ++ trimStart cs := by
  refine ⟨cs.takeWhile isBlank, ?_, List.takeWhile_append_dropWhile.symm⟩
  intro c hc
  exact List.mem_takeWhile_imp hc

theorem first_trimStart (cs : List Char) : ∀ c ∈ (trimStart cs).head?, isBlank c = false := by
  intro c hc
  have hne : trimStart cs ≠ [] := by
    intro hnil
    rw [hnil] at hc
    exact absurd hc (by simp)
  rw [List.head?_eq_some_head hne, Option.mem_some_iff] at hc
  rw [← hc]
  exact List.head_dropWhile_not isBlank hne

/-! ### The end -/

theorem trimEnd_eq (cs : List Char) : trimEnd cs = (trimStart cs.reverse).reverse := rfl

theorem trimEnd_append (hafter : AreBlank after) (cs : List Char) :
    trimEnd (cs ++ after) = trimEnd cs := by
  rw [trimEnd_eq, trimEnd_eq, List.reverse_append, trimStart_append (areBlank_reverse.mpr hafter)]

theorem trimEnd_of_last (hlast : ∀ c ∈ cs.getLast?, isBlank c = false) : trimEnd cs = cs := by
  have hfirst : ∀ c ∈ cs.reverse.head?, isBlank c = false := by
    rw [List.head?_reverse]
    exact hlast
  rw [trimEnd_eq, trimStart_of_first hfirst, List.reverse_reverse]

theorem exists_eq_trimEnd_append (cs : List Char) :
    ∃ after, AreBlank after ∧ cs = trimEnd cs ++ after := by
  obtain ⟨before, hbefore, heq⟩ := exists_eq_append_trimStart cs.reverse
  refine ⟨before.reverse, areBlank_reverse.mpr hbefore, ?_⟩
  rw [trimEnd_eq, ← List.reverse_append, ← heq, List.reverse_reverse]

theorem last_trimEnd (cs : List Char) : ∀ c ∈ (trimEnd cs).getLast?, isBlank c = false := by
  rw [trimEnd_eq, List.getLast?_reverse]
  exact first_trimStart cs.reverse

/-! ### Both ends -/

theorem trims_trimmed (cs : List Char) : Trims cs (trimEnd (trimStart cs)) := by
  obtain ⟨before, hbefore, hstart⟩ := exists_eq_append_trimStart cs
  obtain ⟨after, hafter, hend⟩ := exists_eq_trimEnd_append (trimStart cs)
  refine ⟨⟨?_, last_trimEnd _⟩, before, after, hbefore, hafter, ?_⟩
  · -- what is left of the end begins as it did before, unless nothing is left
    intro c hc
    apply first_trimStart cs
    rw [hend, List.head?_append, Option.mem_def.mp hc, Option.some_or]
    exact Option.mem_some_self c
  · rw [← hend, ← hstart]

theorem Trims.eq_trimmed (htrims : Trims cs trimmed) : trimEnd (trimStart cs) = trimmed := by
  obtain ⟨⟨hfirst, hlast⟩, before, after, hbefore, hafter, rfl⟩ := htrims
  rw [trimStart_append hbefore]
  cases trimmed with
  | nil =>
      -- no character marks where the blanks before end and those after begin
      have hnone : trimStart after = [] := List.dropWhile_eq_nil_iff.mpr hafter
      rw [List.nil_append, hnone]
      rfl
  | cons c trimmed =>
      have hstart : trimStart (c :: trimmed ++ after) = c :: trimmed ++ after :=
        trimStart_of_first hfirst
      rw [hstart, trimEnd_append hafter, trimEnd_of_last hlast]

/-- **Trimming leaves what stands between the blanks at both ends.** -/
theorem trim_eq_iff {text result : String} :
    trim text = result ↔ Trims text.toList result.toList := by
  unfold trim
  constructor
  · rintro rfl
    rw [String.toList_ofList]
    exact trims_trimmed text.toList
  · intro htrims
    rw [htrims.eq_trimmed, String.ofList_toList]

theorem trim_eq_self_iff {text : String} : trim text = text ↔ HasBareEnds text.toList := by
  rw [trim_eq_iff]
  constructor
  · intro htrims
    exact htrims.1
  · intro hends
    exact ⟨hends, [], [], areBlank_nil, areBlank_nil, by simp⟩

theorem hasBareEnds_trim (text : String) : HasBareEnds (trim text).toList :=
  (trim_eq_iff.mp rfl).1

end ServiceWatch.Text
