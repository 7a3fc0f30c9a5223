import Mathlib.Data.List.Basic
import ServiceWatch.Proofs.Text.Split
import ServiceWatch.Text.Quoted

/-!
# Texts of one line

A text without a line feed is one line.  Texts that are put together from lines, with no line feed
between them, are lines, and where line feeds are put between lines they can be found again
(`splitOn_intercalate_lines`).  Where one is put behind every text, they are as many as the texts
exactly if the texts are lines (`count_join_eq_length_iff`).  Numbers are lines, and so are
texts between quotation marks, whatever they quote (`isLine_quoted`).
-/

namespace ServiceWatch.Text

variable {front back : String} {texts : List String}

/-- The text has no line feed. -/
def IsLine (text : String) : Prop := '\n' ∉ text.toList

instance (text : String) : Decidable (IsLine text) :=
  inferInstanceAs (Decidable ('\n' ∉ text.toList))

@[simp] theorem isLine_append : IsLine (front ++ back) ↔ IsLine front ∧ IsLine back := by
  simp [IsLine]

@[simp] theorem isLine_ofList {cs : List Char} : IsLine (String.ofList cs) ↔ '\n' ∉ cs := by
  simp [IsLine]

theorem isLine_intercalate {separator : String} (hseparator : IsLine separator)
    (htexts : ∀ text ∈ texts, IsLine text) : IsLine (separator.intercalate texts) := by
  unfold IsLine
  rw [String.toList_intercalate]
  intro hmem
  obtain hmem | ⟨_, hpiece, hmem⟩ := mem_of_mem_intercalate hmem
  · exact hseparator hmem
  · obtain ⟨text, htext, rfl⟩ := List.mem_map.mp hpiece
    exact htexts text htext hmem

/-- Lines with line feeds between them are the pieces between line feeds. -/
theorem splitOn_intercalate_lines (hlines : ∀ text ∈ texts, IsLine text) (hne : texts ≠ []) :
    splitOn '\n' ("\n".intercalate texts).toList = texts.map String.toList := by
  have hpieces : ∀ piece ∈ texts.map String.toList, '\n' ∉ piece := by
    intro piece hpiece
    obtain ⟨text, htext, rfl⟩ := List.mem_map.mp hpiece
    exact hlines text htext
  rw [splitOn_eq, String.toList_intercalate]
  exact List.splitOn_intercalate '\n' hpieces (by simpa using hne)

/-! ### A line feed behind every text -/

theorem count_join_cons (text : String) (texts : List String) :
    (String.join ((text :: texts).map (· ++ "\n"))).toList.count '\n' =
      text.toList.count '\n' + 1 + (String.join (texts.map (· ++ "\n"))).toList.count '\n' := by
  have hbreak : "\n".toList.count '\n' = 1 := by decide
  rw [List.map_cons, String.join_cons, String.toList_append, String.toList_append,
    List.count_append, List.count_append, hbreak]

theorem length_le_count_join (texts : List String) :
    texts.length ≤ (String.join (texts.map (· ++ "\n"))).toList.count '\n' := by
  induction texts with
  | nil => exact Nat.zero_le _
  | cons text texts ih =>
      rw [count_join_cons, List.length_cons]
      omega

/-- The line feeds are as many as the texts exactly if there is none inside a text. -/
theorem count_join_eq_length_iff :
    (String.join (texts.map (· ++ "\n"))).toList.count '\n' = texts.length ↔
      ∀ text ∈ texts, IsLine text := by
  induction texts with
  | nil => simp
  | cons text texts ih =>
      have hle : texts.length ≤ (String.join (texts.map (· ++ "\n"))).toList.count '\n' :=
        length_le_count_join texts
      have hline : text.toList.count '\n' = 0 ↔ IsLine text := List.count_eq_zero
      rw [List.forall_mem_cons, ← ih, ← hline, count_join_cons, List.length_cons]
      omega

theorem join_eq_intercalate (texts : List String) :
    String.join (texts.map (· ++ "\n")) = "\n".intercalate (texts ++ [""]) := by
  induction texts with
  | nil => rfl
  | cons text texts ih =>
      rw [List.map_cons, String.join_cons, ih, List.cons_append,
        String.intercalate_cons_of_ne_nil (by simp)]

theorem splitOn_join (hlines : ∀ text ∈ texts, IsLine text) :
    splitOn '\n' (String.join (texts.map (· ++ "\n"))).toList =
      texts.map String.toList ++ [[]] := by
  have hall : ∀ text ∈ texts ++ [""], IsLine text := by
    intro text hmem
    rcases List.mem_append.mp hmem with hmem | hempty
    · exact hlines text hmem
    · rw [List.mem_singleton.mp hempty]
      decide
  rw [join_eq_intercalate, splitOn_intercalate_lines hall (by simp)]
  simp

/-! ### Numbers and quoted texts -/

theorem digitChar_ne_lineFeed : ∀ n < 16, Nat.digitChar n ≠ '\n' := by
  decide

theorem lineFeed_notMem_toDigits {base : ℕ} (hbase : 1 < base) (hlimit : base ≤ 16) (n : ℕ) :
    '\n' ∉ Nat.toDigits base n := by
  induction n using Nat.strongRecOn with
  | _ n ih =>
      have hdigit : ∀ m < base, '\n' ∉ [m.digitChar] := by
        intro m hm hmem
        have hne : m.digitChar ≠ '\n' := digitChar_ne_lineFeed m (Nat.lt_of_lt_of_le hm hlimit)
        exact hne (List.mem_singleton.mp hmem).symm
      rw [Nat.toDigits_eq_if hbase]
      split_ifs with hn
      · exact hdigit n hn
      · have hless : n / base < n := Nat.div_lt_self (by omega) hbase
        rw [List.mem_append, not_or]
        exact ⟨ih (n / base) hless, hdigit (n % base) (Nat.mod_lt n (by omega))⟩

@[simp] theorem isLine_toString (n : ℕ) : IsLine (toString n) := by
  simp [IsLine, lineFeed_notMem_toDigits]

@[simp] theorem isLine_toString_int (n : Int) : IsLine (toString n) := by
  cases n with
  | ofNat n => simp [IsLine, toString, Int.repr, lineFeed_notMem_toDigits]
  | negSucc n => simp [IsLine, toString, Int.repr, lineFeed_notMem_toDigits]

theorem lineFeed_notMem_quoteChar (c : Char) : '\n' ∉ quoteChar c := by
  unfold quoteChar
  split_ifs with _ _ _ hfeed
  · decide
  · decide
  · decide
  · decide
  · decide
  · decide
  · exact fun hmem => hfeed (List.mem_singleton.mp hmem).symm
  · simp [hexCode, lineFeed_notMem_toDigits]

@[simp] theorem isLine_quoted (text : String) : IsLine (quoted text) := by
  simp [quoted, IsLine, lineFeed_notMem_quoteChar]

end ServiceWatch.Text
