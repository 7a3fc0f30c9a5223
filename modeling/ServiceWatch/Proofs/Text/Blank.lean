import ServiceWatch.Proofs.Text.Split
import ServiceWatch.Text.Blank

/-!
# Tokens between blanks

The tokens of a text in which a blank stands are those in front of the blank and those behind it
(`tokens_append_cons`).  With that, a text is taken apart from the left: it has a first token
exactly if it is that token between blanks and whatever else follows (`tokens_eq_cons_iff`), and so
it has two tokens exactly if it is written as two words with blanks between and around them
(`tokens_eq_pair_iff`).
-/

namespace ServiceWatch.Text

variable {c : Char} {cs before after word value : List Char} {words : List (List Char)}

/-- All characters of the text are blanks. -/
def AreBlank (cs : List Char) : Prop := ∀ c ∈ cs, isBlank c = true

/-- The text has characters, none of which is a blank. -/
def IsWord (cs : List Char) : Prop := cs ≠ [] ∧ ∀ c ∈ cs, isBlank c = false

/-- The text is empty or begins with a blank, so it ends the word in front of it. -/
def EndsWord (cs : List Char) : Prop := ∀ c, cs.head? = some c → isBlank c = true

theorem areBlank_nil : AreBlank [] := fun _ hc => absurd hc List.not_mem_nil

theorem AreBlank.cons (hc : isBlank c = true) (hcs : AreBlank cs) : AreBlank (c :: cs) :=
  List.forall_mem_cons.mpr ⟨hc, hcs⟩

theorem AreBlank.endsWord (hcs : AreBlank cs) : EndsWord cs :=
  fun c hc => hcs c (List.mem_of_mem_head? hc)

theorem AreBlank.endsWord_append (hbefore : AreBlank before) (hne : before ≠ [])
    (after : List Char) : EndsWord (before ++ after) := by
  intro c hc
  rw [List.head?_append_of_ne_nil _ hne] at hc
  exact hbefore c (List.mem_of_mem_head? hc)

/-! ### Taking tokens off -/

/-- A blank belongs to no token, and parts those in front of it from those behind it. -/
theorem tokens_append_cons (hc : isBlank c = true) (front back : List Char) :
    tokens (front ++ c :: back) = tokens front ++ tokens back := by
  simp only [tokens, splitWhere_eq_splitOnP]
  rw [List.splitOnP_append_cons front back hc, List.filter_append]

@[simp] theorem tokens_nil : tokens [] = [] := rfl

theorem tokens_cons_of_isBlank (hc : isBlank c = true) (cs : List Char) :
    tokens (c :: cs) = tokens cs :=
  tokens_append_cons hc [] cs

theorem tokens_append_singleton (hc : isBlank c = true) (cs : List Char) :
    tokens (cs ++ [c]) = tokens cs := by
  rw [tokens_append_cons hc cs [], tokens_nil, List.append_nil]

theorem tokens_append_of_areBlank (hbefore : AreBlank before) (after : List Char) :
    tokens (before ++ after) = tokens after := by
  induction before with
  | nil => rfl
  | cons c before ih =>
      rw [List.cons_append, tokens_cons_of_isBlank (hbefore c List.mem_cons_self)]
      exact ih fun other hother => hbefore other (List.mem_cons_of_mem c hother)

theorem tokens_of_areBlank (hcs : AreBlank cs) : tokens cs = [] := by
  rw [← List.append_nil cs, tokens_append_of_areBlank hcs, tokens_nil]

theorem tokens_of_isWord (hword : IsWord word) : tokens word = [word] := by
  have hne : word.isEmpty = false := by simpa using hword.1
  rw [tokens, splitWhere_eq_splitOnP, List.splitOnP_eq_singleton hword.2]
  simp [hne]

theorem tokens_append_of_isWord (hword : IsWord word) (hafter : EndsWord after) :
    tokens (word ++ after) = word :: tokens after := by
  cases after with
  | nil => rw [List.append_nil, tokens_of_isWord hword, tokens_nil]
  | cons c after =>
      have hc := hafter c rfl
      rw [tokens_append_cons hc, tokens_of_isWord hword, tokens_cons_of_isBlank hc]
      rfl

/-! ### How a text of given tokens is written -/

theorem exists_word (hc : isBlank c = false) (cs : List Char) :
    ∃ word after, c :: cs = word ++ after ∧ IsWord word ∧ EndsWord after := by
  induction cs generalizing c with
  | nil => exact ⟨[c], [], rfl, ⟨by simp, by simpa using hc⟩, areBlank_nil.endsWord⟩
  | cons next cs ih =>
      by_cases hnext : isBlank next = true
      · refine ⟨[c], next :: cs, rfl, ⟨by simp, by simpa using hc⟩, ?_⟩
        intro other hother
        rwa [← Option.some_inj.mp hother]
      · obtain ⟨word, after, heq, hword, hafter⟩ := ih (Bool.eq_false_iff.mpr hnext)
        refine ⟨c :: word, after, by rw [heq]; rfl, ⟨by simp, ?_⟩, hafter⟩
        exact List.forall_mem_cons.mpr ⟨hc, hword.2⟩

theorem tokens_eq_nil_iff : tokens cs = [] ↔ AreBlank cs := by
  refine ⟨fun htokens => ?_, tokens_of_areBlank⟩
  induction cs with
  | nil => exact areBlank_nil
  | cons c cs ih =>
      by_cases hc : isBlank c = true
      · rw [tokens_cons_of_isBlank hc] at htokens
        exact (ih htokens).cons hc
      · -- a character that is no blank begins a token
        obtain ⟨word, after, heq, hword, hafter⟩ := exists_word (Bool.eq_false_iff.mpr hc) cs
        rw [heq, tokens_append_of_isWord hword hafter] at htokens
        exact absurd htokens (List.cons_ne_nil _ _)

/-- The first token stands behind blanks and in front of one, or of nothing. -/
theorem tokens_eq_cons_iff :
    tokens cs = word :: words ↔
      ∃ before after, AreBlank before ∧ IsWord word ∧ EndsWord after ∧ tokens after = words ∧
        cs = before ++ (word ++ after) := by
  constructor
  · intro htokens
    induction cs with
    | nil => exact absurd htokens (by simp)
    | cons c cs ih =>
        by_cases hc : isBlank c = true
        · rw [tokens_cons_of_isBlank hc] at htokens
          obtain ⟨before, after, hbefore, hword, hafter, hwords, rfl⟩ := ih htokens
          exact ⟨c :: before, after, hbefore.cons hc, hword, hafter, hwords, rfl⟩
        · obtain ⟨first, after, heq, hfirst, hafter⟩ := exists_word (Bool.eq_false_iff.mpr hc) cs
          rw [heq, tokens_append_of_isWord hfirst hafter] at htokens
          obtain ⟨rfl, hwords⟩ := List.cons_eq_cons.mp htokens
          exact ⟨[], after, areBlank_nil, hfirst, hafter, hwords, heq⟩
  · rintro ⟨before, after, hbefore, hword, hafter, rfl, rfl⟩
    rw [tokens_append_of_areBlank hbefore, tokens_append_of_isWord hword hafter]

/-- **A text has two tokens exactly if it is written as two words** with blanks between them, and
maybe around them. -/
theorem tokens_eq_pair_iff :
    tokens cs = [word, value] ↔
      ∃ before gap after, AreBlank before ∧ AreBlank gap ∧ gap ≠ [] ∧ AreBlank after ∧
        IsWord word ∧ IsWord value ∧ cs = before ++ (word ++ (gap ++ (value ++ after))) := by
  rw [tokens_eq_cons_iff]
  constructor
  · rintro ⟨before, rest, hbefore, hword, hrest, htokens, rfl⟩
    obtain ⟨gap, after, hgap, hvalue, -, hafter, rfl⟩ := tokens_eq_cons_iff.mp htokens
    have hne : gap ≠ [] := by
      -- the second word begins with no blank, so a blank has to end the first one
      rintro rfl
      obtain ⟨c, value, rfl⟩ := List.exists_cons_of_ne_nil hvalue.1
      have hc := hvalue.2 c List.mem_cons_self
      rw [hrest c rfl] at hc
      exact Bool.noConfusion hc
    exact ⟨before, gap, after, hbefore, hgap, hne, tokens_eq_nil_iff.mp hafter, hword, hvalue, rfl⟩
  · rintro ⟨before, gap, after, hbefore, hgap, hne, hafter, hword, hvalue, rfl⟩
    refine ⟨before, _, hbefore, hword, hgap.endsWord_append hne _, ?_, rfl⟩
    rw [tokens_append_of_areBlank hgap, tokens_append_of_isWord hvalue hafter.endsWord,
      tokens_of_areBlank hafter]

end ServiceWatch.Text
