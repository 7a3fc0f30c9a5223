import ServiceWatch.Proofs.Metrics.Exposition

/-!
# Answers put together and rearranged

An answer in which two texts stand with a line feed between them holds what the second one holds,
and behind that what the first one holds.  For the pieces of the whole are those of the two parts,
one after the other, and of several entries for a name the last counts.

So it makes no difference to a scrape where in the answer a line stands that gives nothing, nor in
which order two neighbours stand that begin with different tokens, nor whether a carriage return
stands at the end of a line.  Whatever can be reached by such changes, made any number of times and
anywhere (`Metrics.Rearranged`), spells the same scrape (`Scrape.ofText_rearranged`).
-/

namespace ServiceWatch

namespace Metrics

open Text (tokens)

variable {body other : String} {cut again : List (List Char)} {line first second : List Char}
  {name : String} {value : Binary64}

/-! ### Pieces -/

/-- The pieces of two texts with a line feed between them are those of both. -/
theorem pieces_append (front back : String) :
    pieces (front ++ "\n" ++ back) = pieces front ++ pieces back := by
  rw [pieces, String.toList_append, String.toList_append]
  have hfeed : ("\n" : String).toList = ['\n'] := rfl
  rw [hfeed, List.append_assoc, List.singleton_append, List.splitOn_append_cons_self]
  rfl

/-- What the last of these lines that gives a value for the name gives. -/
def last? (cut : List (List Char)) (name : String) : Option Binary64 :=
  (cut.filterMap ofLine?).reverse.lookup name

theorem last?_append (front back : List (List Char)) (name : String) :
    last? (front ++ back) name = (last? back name).or (last? front name) := by
  rw [last?, List.filterMap_append, List.reverse_append, List.lookup_append]
  rfl

theorem last?_cons (line : List Char) (cut : List (List Char)) (name : String) :
    last? (line :: cut) name = (last? cut name).or (last? [line] name) :=
  last?_append [line] cut name

theorem last?_singleton_eq_some_iff : last? [line] name = some value ↔ Gives line name value := by
  rw [← ofLine?_eq_some_iff, last?]
  cases hline : ofLine? line with
  | none => simp [hline]
  | some entry =>
      obtain ⟨other, number⟩ := entry
      by_cases hname : name = other
      · simp [hline, hname]
      · simp [hline, lookup_cons_of_ne hname, Ne.symm hname]

theorem last?_singleton_eq_none (hline : ∀ value, ¬ Gives line name value) :
    last? [line] name = none := by
  rw [Option.eq_none_iff_forall_ne_some]
  exact fun value hvalue => hline value (last?_singleton_eq_some_iff.mp hvalue)

/-- The name that a line gives a value for is its first token. -/
theorem Gives.head?_tokens (hgives : Gives line name value) :
    (tokens line).head? = some name.toList := by
  obtain ⟨-, before, gap, number, after, hbefore, hgap, hne, hafter, hname, hnumber, rfl, -⟩ := hgives
  rw [Text.tokens_append_of_areBlank hbefore,
    Text.tokens_append_of_isWord hname (hgap.endsWord_append hne _)]
  rfl

/-! ### Changes that make no difference -/

/-- The second list of lines comes from the first by changes of three kinds, and changes back: a line
is put in that gives nothing, two neighbours with different first tokens change places, or a carriage
return is put at the end of a line. -/
inductive Rearranged : List (List Char) → List (List Char) → Prop where
  | refl (cut : List (List Char)) : Rearranged cut cut
  | insert (front back : List (List Char)) {line : List Char}
      (hline : ∀ name value, ¬ Gives line name value) :
      Rearranged (front ++ back) (front ++ line :: back)
  | swap (front back : List (List Char)) {first second : List Char}
      (hne : (tokens first).head? ≠ (tokens second).head?) :
      Rearranged (front ++ first :: second :: back) (front ++ second :: first :: back)
  | ending (front : List (List Char)) (line : List Char) (back : List (List Char)) :
      Rearranged (front ++ line :: back) (front ++ (line ++ ['\r']) :: back)
  | symm {cut again : List (List Char)} (hcut : Rearranged cut again) : Rearranged again cut
  | trans {cut between again : List (List Char)} (hcut : Rearranged cut between)
      (hagain : Rearranged between again) : Rearranged cut again

/-- Two lines with different first tokens do not give values for the same name. -/
theorem last?_eq_none_or (hne : (tokens first).head? ≠ (tokens second).head?) (name : String) :
    last? [first] name = none ∨ last? [second] name = none := by
  by_cases hfirst : ∃ value, Gives first name value
  · obtain ⟨value, hvalue⟩ := hfirst
    refine Or.inr (last?_singleton_eq_none fun number hnumber => hne ?_)
    rw [hvalue.head?_tokens, hnumber.head?_tokens]
  · exact Or.inl (last?_singleton_eq_none fun value hvalue => hfirst ⟨value, hvalue⟩)

theorem Rearranged.last?_eq (hcut : Rearranged cut again) (name : String) :
    last? cut name = last? again name := by
  induction hcut with
  | refl cut => rfl
  | insert front back hline =>
      rw [last?_append, last?_append, last?_cons, last?_singleton_eq_none (hline name),
        Option.or_none]
  | @swap front back first second hne =>
      have hcomm : ∀ before : Option Binary64,
          (last? [second] name).or ((last? [first] name).or before) =
            (last? [first] name).or ((last? [second] name).or before) := by
        intro before
        rcases last?_eq_none_or hne name with hnone | hnone <;> simp [hnone]
      rw [last?_append, last?_append, last?_cons first (second :: back), last?_cons second back,
        last?_cons second (first :: back), last?_cons first back]
      simp only [Option.or_assoc, hcomm]
  | ending front line back =>
      have hline : last? [line ++ ['\r']] name = last? [line] name := by
        simp only [last?, List.filterMap_cons, ofLine?_append_return]
      rw [last?_append, last?_append, last?_cons line, last?_cons (line ++ ['\r']), hline]
  | symm _ ih => exact ih.symm
  | trans _ _ ihcut ihagain => exact ihcut.trans ihagain

/-! ### Carriage returns -/

/-- The answer with a carriage return put in front of every line feed. -/
def withReturns (body : String) : String :=
  String.ofList (body.toList.flatMap fun c => if c = '\n' then ['\r', '\n'] else [c])

/-- The pieces with a carriage return at the end of each but the last. -/
def addReturns : List (List Char) → List (List Char)
  | [] => []
  | [last] => [last]
  | piece :: next :: others => (piece ++ ['\r']) :: addReturns (next :: others)

theorem addReturns_modifyHead (c : Char) (cut : List (List Char)) :
    addReturns (cut.modifyHead (List.cons c)) = (addReturns cut).modifyHead (List.cons c) := by
  rcases cut with _ | ⟨piece, _ | ⟨next, others⟩⟩ <;> rfl

theorem addReturns_nil_cons (hne : cut ≠ []) :
    addReturns ([] :: cut) = ['\r'] :: addReturns cut := by
  cases cut with
  | nil => exact absurd rfl hne
  | cons piece others => rfl

theorem pieces_withReturns (body : String) : pieces (withReturns body) = addReturns (pieces body) := by
  rw [pieces, pieces, withReturns, String.toList_ofList]
  induction body.toList with
  | nil => rfl
  | cons c cs ih =>
      rw [List.flatMap_cons, List.splitOn_cons_eq_if_modifyHead]
      by_cases hc : c = '\n'
      · subst hc
        have hreturn : ((['\r', '\n'] ++ cs.flatMap fun c => if c = '\n' then ['\r', '\n'] else [c]) :
            List Char).splitOn '\n' =
              ['\r'] :: (cs.flatMap fun c => if c = '\n' then ['\r', '\n'] else [c]).splitOn '\n' :=
          List.splitOn_append_cons_self ['\r'] _
        rw [if_pos rfl, hreturn, ih, if_pos (beq_self_eq_true _),
          addReturns_nil_cons (List.splitOn_ne_nil '\n' cs)]
      · rw [if_neg hc, List.singleton_append, List.splitOn_cons_eq_if_modifyHead,
          if_neg (by simpa using hc), if_neg (by simpa using hc), ih, addReturns_modifyHead]

theorem rearranged_addReturns (front cut : List (List Char)) :
    Rearranged (front ++ cut) (front ++ addReturns cut) := by
  induction cut generalizing front with
  | nil => exact .refl _
  | cons piece others ih =>
      cases others with
      | nil => exact .refl _
      | cons next others =>
          have hrest := ih (front ++ [piece ++ ['\r']])
          simp only [List.append_assoc, List.singleton_append] at hrest
          exact (Rearranged.ending front piece (next :: others)).trans hrest

end Metrics

/-! ### Scrapes that answer alike -/

namespace Scrape

open Metrics (Rearranged last? pieces withReturns)

variable {scrape other : Scrape}

/-- Nothing that can be asked of the two scrapes tells them apart. -/
structure IsSame (scrape other : Scrape) : Prop where
  value? : ∀ name, scrape.value? name = other.value? name
  contains : ∀ name, scrape.contains name = other.contains name
  size : scrape.size = other.size
  isEmpty : scrape.isEmpty = other.isEmpty
  missing : ∀ names, scrape.missing names = other.missing names

/-- Scrapes in which no name has two entries are the same if they hold the same values. -/
theorem isSame_of_value? (hscrape : scrape.names.Nodup) (hother : other.names.Nodup)
    (hvalue : ∀ name, scrape.value? name = other.value? name) : scrape.IsSame other := by
  have hcontains : ∀ name, scrape.contains name = other.contains name := fun name =>
    congrArg Option.isSome (hvalue name)
  refine ⟨hvalue, hcontains, ?_, ?_, fun names => ?_⟩
  · rw [size_eq_ncard hscrape, size_eq_ncard hother]
    simp only [hcontains]
  · rw [Bool.eq_iff_iff, ← not_iff_not, Bool.not_eq_true, Bool.not_eq_true, isEmpty_eq_false_iff,
      isEmpty_eq_false_iff]
    simp only [hcontains]
  · simp only [Scrape.missing, hcontains]

theorem value?_ofText (body : String) (name : String) :
    (ofText body).value? name = last? (pieces body) name := by
  rw [ofText, value?_ofEntries, Metrics.entries_eq, last?]

theorem isSame_of_rearranged {body again : String}
    (hpieces : Rearranged (pieces body) (pieces again)) :
    (ofText body).IsSame (ofText again) := by
  refine isSame_of_value? (nodup_names_ofText body) (nodup_names_ofText again) fun name => ?_
  rw [value?_ofText, value?_ofText, hpieces.last?_eq]

/-- The values of a text behind another one override those of the first. -/
theorem value?_ofText_append (front back : String) (name : String) :
    (ofText (front ++ "\n" ++ back)).value? name =
      ((ofText back).value? name).or ((ofText front).value? name) := by
  simp only [value?_ofText, Metrics.pieces_append, Metrics.last?_append]

theorem lookup_reverse_of_nodup {pairs : List (String × Binary64)}
    (hpairs : (pairs.map Prod.fst).Nodup) (name : String) :
    pairs.reverse.lookup name = pairs.lookup name := by
  induction pairs with
  | nil => rfl
  | cons pair rest ih =>
      obtain ⟨other, value⟩ := pair
      obtain ⟨hother, hrest⟩ := List.nodup_cons.mp hpairs
      rw [List.reverse_cons, List.lookup_append, ih hrest]
      by_cases hname : name = other
      · -- the name occurs here, so nowhere else
        have hnone : rest.lookup name = none := by
          rw [← Option.not_isSome_iff_eq_none, isSome_lookup_iff]
          rintro ⟨number, hentry⟩
          exact hother (List.mem_map.mpr ⟨_, hentry, hname⟩)
        rw [hnone, hname, List.lookup_cons_self, Option.none_or, List.lookup_cons_self]
      · rw [lookup_cons_of_ne hname, lookup_cons_of_ne hname, List.lookup_nil, Option.or_none]

/-- What is overridden by the entries of a scrape has the values of that scrape first. -/
theorem value?_putAll_entries (scrape : Scrape) (hother : other.names.Nodup) (name : String) :
    (scrape.putAll other.entries).value? name = (other.value? name).or (scrape.value? name) := by
  rw [value?_putAll, lookup_reverse_of_nodup hother]
  rfl

/-- **Answers are read piece by piece.**  An answer of two texts with a line feed between them spells
what the first one spells, overridden by what the second one spells.  Answers that differ by lines
that give nothing, by the order of lines with different first tokens, and by carriage returns at the
end of lines spell the same; so does an answer in which every line feed got a carriage return in
front of it. -/
theorem ofText_rearranged :
    (∀ front back : String, (ofText (front ++ "\n" ++ back)).IsSame
      ((ofText front).putAll (ofText back).entries)) ∧
    (∀ (front back : String) (name : String), (ofText (front ++ "\n" ++ back)).value? name =
      ((ofText back).value? name).or ((ofText front).value? name)) ∧
    (∀ body again : String, Rearranged (pieces body) (pieces again) →
      (ofText body).IsSame (ofText again)) ∧
    ∀ body : String, (ofText (withReturns body)).IsSame (ofText body) := by
  refine ⟨fun front back => ?_, value?_ofText_append, fun body again => isSame_of_rearranged,
    fun body => ?_⟩
  · refine isSame_of_value? (nodup_names_ofText _) (nodup_names_putAll (nodup_names_ofText front) _)
      fun name => ?_
    rw [value?_ofText_append, value?_putAll_entries _ (nodup_names_ofText back)]
  · have hreturns := Metrics.rearranged_addReturns [] (pieces body)
    rw [List.nil_append, List.nil_append, ← Metrics.pieces_withReturns] at hreturns
    exact isSame_of_rearranged hreturns.symm

/-- The two lines of an answer change places, one gets a carriage return, and a comment with a number
comes between them. -/
theorem ofText_shuffled :
    Rearranged (pieces "a 1\nb 2") (pieces "b 2\r\n# 3\na 1") ∧
      (ofText "a 1\nb 2").IsSame (ofText "b 2\r\n# 3\na 1") ∧
      (ofText "b 2\r\n# 3\na 1").value? "a" = some (.ofNat false 1) := by
  have hbefore : pieces "a 1\nb 2" = ["a 1".toList, "b 2".toList] := by decide +kernel
  have hafter : pieces "b 2\r\n# 3\na 1" = ["b 2".toList ++ ['\r'], "# 3".toList, "a 1".toList] := by
    decide +kernel
  have hcomment : ∀ name value, ¬ Metrics.Gives "# 3".toList name value := fun name value hgives =>
    hgives.isNoComment (by decide)
  have hswap := @Rearranged.swap [] [] "a 1".toList "b 2".toList (by decide +kernel)
  have hending := Rearranged.ending [] "b 2".toList ["a 1".toList]
  have hinsert := Rearranged.insert ["b 2".toList ++ ['\r']] ["a 1".toList] hcomment
  have hpieces : Rearranged (pieces "a 1\nb 2") (pieces "b 2\r\n# 3\na 1") := by
    rw [hbefore, hafter]
    exact (hswap.trans hending).trans hinsert
  have hsame := ofText_rearranged.2.2.1 _ _ hpieces
  refine ⟨hpieces, hsame, ?_⟩
  rw [← hsame.value?]
  decide +kernel

end Scrape

end ServiceWatch
