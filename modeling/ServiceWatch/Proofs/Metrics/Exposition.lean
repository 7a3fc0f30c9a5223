import Mathlib.Data.Set.Card
import ServiceWatch.Proofs.Metrics.Scrape
import ServiceWatch.Proofs.Text.Blank

/-!
# What the lines of an answer say

The lines of an answer are the pieces between its line feeds, without one carriage return in front of
the line feed (`lines`).  A line gives a value for a name if it is no comment and is written as the
name and a number, with blanks between them and maybe around them (`Gives`).  That is what a scrape
is made of: of each name it holds the value that the last such line gives, and it holds no others
(`Scrape.ofText_reads_lines`).

A carriage return is a blank, so it makes no difference to what a line gives whether one stands at
its end (`ofLine?_append_return`).  Therefore the entries of an answer come from the pieces between
line feeds as they are (`entries_eq`).
-/

namespace ServiceWatch

namespace Metrics

open Text (AreBlank IsWord tokens)

variable {body : String} {line : List Char} {name : String} {value : Binary64}

/-! ### What a line gives -/

/-- The line gives this value for this name. -/
structure Gives (line : List Char) (name : String) (value : Binary64) : Prop where
  isNoComment : line.head? ≠ some '#'
  parts : ∃ before gap number after, AreBlank before ∧ AreBlank gap ∧ gap ≠ [] ∧ AreBlank after ∧
    IsWord name.toList ∧ IsWord number ∧
    line = before ++ (name.toList ++ (gap ++ (number ++ after))) ∧
    Binary64.ofText? number = some value

theorem ofLine?_eq_some_iff : ofLine? line = some (name, value) ↔ Gives line name value := by
  by_cases hcomment : line.head? = some '#'
  · rw [ofLine?, if_pos hcomment]
    exact ⟨fun hline => absurd hline (by simp), fun hgives => absurd hcomment hgives.isNoComment⟩
  · have htokens : ofLine? line = some (name, value) ↔
        ∃ number, tokens line = [name.toList, number] ∧ Binary64.ofText? number = some value := by
      rw [ofLine?, if_neg hcomment]
      rcases tokens line with _ | ⟨first, _ | ⟨second, _ | ⟨third, others⟩⟩⟩
      · simp
      · simp
      · simp only [Option.map_eq_some_iff, Prod.mk.injEq, List.cons.injEq, and_true]
        constructor
        · rintro ⟨number, hnumber, rfl, rfl⟩
          exact ⟨second, ⟨String.toList_ofList.symm, rfl⟩, hnumber⟩
        · rintro ⟨number, ⟨rfl, rfl⟩, hnumber⟩
          exact ⟨value, hnumber, String.ofList_toList, rfl⟩
      · simp
    rw [htokens]
    constructor
    · rintro ⟨number, hpair, hnumber⟩
      obtain ⟨before, gap, after, hbefore, hgap, hne, hafter, hname, hword, rfl⟩ :=
        Text.tokens_eq_pair_iff.mp hpair
      exact ⟨hcomment, before, gap, number, after, hbefore, hgap, hne, hafter, hname, hword, rfl,
        hnumber⟩
    · rintro ⟨-, before, gap, number, after, hbefore, hgap, hne, hafter, hname, hword, rfl,
        hnumber⟩
      exact ⟨number, Text.tokens_eq_pair_iff.mpr
        ⟨before, gap, after, hbefore, hgap, hne, hafter, hname, hword, rfl⟩, hnumber⟩

/-- A carriage return at the end makes no difference to a line. -/
theorem ofLine?_append_return (line : List Char) : ofLine? (line ++ ['\r']) = ofLine? line := by
  have hhead : (line ++ ['\r']).head? = some '#' ↔ line.head? = some '#' := by
    cases line <;> simp
  rw [ofLine?, ofLine?, Text.tokens_append_singleton (by decide)]
  simp only [hhead]

theorem ofLine?_dropReturn (line : List Char) : ofLine? (Text.dropReturn line) = ofLine? line := by
  by_cases hreturn : line.getLast? = some '\r'
  · obtain ⟨front, rfl⟩ := List.getLast?_eq_some_iff.mp hreturn
    rw [Text.dropReturn, if_pos hreturn, List.dropLast_concat, ofLine?_append_return]
  · rw [Text.dropReturn, if_neg hreturn]

/-! ### The lines of an answer -/

/-- The pieces of an answer between its line feeds. -/
def pieces (body : String) : List (List Char) := body.toList.splitOn '\n'

/-- The lines of an answer: its pieces, but for one carriage return in front of a line feed. -/
def lines (body : String) : List (List Char) :=
  (pieces body).dropLast.map Text.dropReturn ++ (pieces body).getLast?.toList

theorem filterMap_linesOfPieces (cut : List (List Char)) :
    (Text.linesOfPieces cut).filterMap ofLine? = cut.filterMap ofLine? := by
  induction cut with
  | nil => rfl
  | cons piece others ih =>
      cases others with
      | nil =>
          -- the last piece is no line if it is empty, and an empty line gives nothing
          cases piece <;> rfl
      | cons next others =>
          rw [Text.linesOfPieces, List.filterMap_cons, List.filterMap_cons, ofLine?_dropReturn, ih]
          simp

/-- The entries of an answer come from its pieces. -/
theorem entries_eq (body : String) : entries body = (pieces body).filterMap ofLine? := by
  rw [entries, Text.lines, Text.splitOn_eq]
  exact filterMap_linesOfPieces _

/-- The entries of an answer come from its lines. -/
theorem entries_eq_filterMap_lines (body : String) :
    entries body = (lines body).filterMap ofLine? := by
  have hne : pieces body ≠ [] := List.splitOn_ne_nil '\n' body.toList
  have hsame : ∀ cut : List (List Char),
      (cut.map Text.dropReturn).filterMap ofLine? = cut.filterMap ofLine? := by
    intro cut
    rw [List.filterMap_map]
    exact congrArg (cut.filterMap ·) (funext ofLine?_dropReturn)
  rw [entries_eq, lines, List.filterMap_append, hsame, ← List.filterMap_append,
    List.getLast?_eq_some_getLast hne, Option.toList_some, List.dropLast_append_getLast hne]

/-- Some line of the answer gives a value for this name. -/
def IsHeaded (body : String) (name : String) : Prop :=
  ∃ line ∈ lines body, ∃ value, Gives line name value

theorem isHeaded_iff (body : String) (name : String) :
    name ∈ (entries body).map Prod.fst ↔ IsHeaded body name := by
  simp only [IsHeaded, entries_eq_filterMap_lines, List.mem_map, List.mem_filterMap, Prod.exists,
    ← ofLine?_eq_some_iff]
  constructor
  · rintro ⟨other, value, ⟨line, hline, hentry⟩, rfl⟩
    exact ⟨line, hline, value, hentry⟩
  · rintro ⟨line, hline, value, hentry⟩
    exact ⟨name, value, ⟨line, hline, hentry⟩, rfl⟩

instance (body : String) (name : String) : Decidable (IsHeaded body name) :=
  decidable_of_iff _ (isHeaded_iff body name)

/-- The last entry for a name is the one of the last line that gives a value for it. -/
theorem lookup_reverse_entries_iff :
    (entries body).reverse.lookup name = some value ↔
      ∃ before line after, lines body = before ++ line :: after ∧ Gives line name value ∧
        ∀ later ∈ after, ∀ other, ¬ Gives later name other := by
  simp only [List.lookup_eq_some_iff, List.reverse_eq_iff, List.reverse_append, List.reverse_cons,
    List.append_assoc, List.singleton_append, entries_eq_filterMap_lines]
  constructor
  · rintro ⟨later, earlier, hentries, hlast⟩
    obtain ⟨before, rest, hlines, -, hrest⟩ := List.filterMap_eq_append_iff.mp hentries
    obtain ⟨idle, line, after, rfl, -, hline, hafter⟩ := List.filterMap_eq_cons_iff.mp hrest
    refine ⟨before ++ idle, line, after, by rw [hlines, List.append_assoc],
      ofLine?_eq_some_iff.mp hline, ?_⟩
    intro other hother number hgives
    have hmem : (name, number) ∈ after.filterMap ofLine? :=
      List.mem_filterMap.mpr ⟨other, hother, ofLine?_eq_some_iff.mpr hgives⟩
    rw [hafter, List.mem_reverse] at hmem
    simpa using hlast _ hmem
  · rintro ⟨before, line, after, hlines, hgives, hlast⟩
    refine ⟨(after.filterMap ofLine?).reverse, (before.filterMap ofLine?).reverse, ?_, ?_⟩
    · rw [hlines, List.filterMap_append, List.filterMap_cons, ofLine?_eq_some_iff.mpr hgives]
      simp
    · rintro ⟨other, number⟩ hmem
      rw [List.mem_reverse, List.mem_filterMap] at hmem
      obtain ⟨later, hlater, hentry⟩ := hmem
      have hne : name ≠ other := by
        rintro rfl
        exact hlast later hlater number (ofLine?_eq_some_iff.mp hentry)
      simpa using hne

end Metrics

/-! ### The scrape of an answer -/

namespace Scrape

open Metrics (Gives IsHeaded lines)

/-- The names of the entries. -/
def names (scrape : Scrape) : List String := scrape.entries.map Prod.fst

theorem map_fst_putEntry (name : String) (value : Binary64) (pairs : List (String × Binary64)) :
    (putEntry name value pairs).map Prod.fst =
      if name ∈ pairs.map Prod.fst then pairs.map Prod.fst else pairs.map Prod.fst ++ [name] := by
  induction pairs with
  | nil => rfl
  | cons pair rest ih =>
      obtain ⟨other, old⟩ := pair
      rw [putEntry]
      by_cases hname : name = other
      · simp [hname]
      · rw [if_neg (by simpa using hname), List.map_cons, ih]
        by_cases hrest : name ∈ rest.map Prod.fst
        · simp [hrest]
        · simp [hrest, hname]

/-- No name gets two entries. -/
theorem nodup_names_putAll {scrape : Scrape} (hscrape : scrape.names.Nodup)
    (entries : List (String × Binary64)) : (scrape.putAll entries).names.Nodup := by
  unfold putAll
  induction entries generalizing scrape with
  | nil => exact hscrape
  | cons entry rest ih =>
      refine ih ?_
      rw [names, put, map_fst_putEntry]
      split
      next => exact hscrape
      next hentry => exact hscrape.append (List.nodup_singleton _) (List.disjoint_singleton.mpr hentry)

theorem nodup_names_ofText (body : String) : (ofText body).names.Nodup :=
  @nodup_names_putAll empty List.nodup_nil _

theorem mem_names_iff (scrape : Scrape) (name : String) :
    name ∈ scrape.names ↔ scrape.contains name = true := by
  rw [contains, value?, isSome_lookup_iff, names, List.mem_map]
  constructor
  · rintro ⟨entry, hentry, rfl⟩
    exact ⟨entry.2, hentry⟩
  · rintro ⟨value, hentry⟩
    exact ⟨(name, value), hentry, rfl⟩

theorem size_eq_ncard {scrape : Scrape} (hnames : scrape.names.Nodup) :
    scrape.size = {name | scrape.contains name = true}.ncard := by
  have hset : {name | scrape.contains name = true} = (scrape.names.toFinset : Set String) := by
    ext name
    simp [mem_names_iff]
  rw [hset, Set.ncard_coe_finset, List.toFinset_card_of_nodup hnames, names, List.length_map, size]

theorem contains_ofText_iff_isHeaded (body : String) (name : String) :
    (ofText body).contains name = true ↔ IsHeaded body name := by
  rw [contains, ofText, value?_ofEntries, isSome_lookup_iff, ← Metrics.isHeaded_iff, List.mem_map]
  simp only [List.mem_reverse]
  constructor
  · rintro ⟨value, hentry⟩
    exact ⟨(name, value), hentry, rfl⟩
  · rintro ⟨entry, hentry, rfl⟩
    exact ⟨entry.2, hentry⟩

/-- **The scrape of an answer holds what its lines give, and the last one counts.**  A name has the
value of the last line that gives one for it, and none if there is no such line; so the scrape
contains the names that are headed, its size is the number of them, it is empty if no line gives
anything, and what is missing of some names are those that are not headed, in their order. -/
theorem ofText_reads_lines (body : String) :
    (∀ name value, (ofText body).value? name = some value ↔
      ∃ before line after, lines body = before ++ line :: after ∧ Gives line name value ∧
        ∀ later ∈ after, ∀ other, ¬ Gives later name other) ∧
    (∀ name, (ofText body).value? name = none ↔ ¬ IsHeaded body name) ∧
    (∀ name, (ofText body).contains name = ((ofText body).value? name).isSome) ∧
    (ofText body).size = {name | IsHeaded body name}.ncard ∧
    ((ofText body).isEmpty = true ↔
      ∀ line ∈ lines body, ∀ name value, ¬ Gives line name value) ∧
    ∀ required, (ofText body).missing required =
      required.filter fun name => ¬ IsHeaded body name := by
  have hheaded := contains_ofText_iff_isHeaded body
  refine ⟨fun name value => ?_, fun name => ?_, fun name => rfl, ?_, ?_, fun required => ?_⟩
  · rw [ofText, value?_ofEntries]
    exact Metrics.lookup_reverse_entries_iff
  · rw [← hheaded, contains, Option.not_isSome_iff_eq_none]
  · rw [size_eq_ncard (nodup_names_ofText body)]
    simp only [hheaded]
  · rw [← Bool.not_eq_false, isEmpty_eq_false_iff]
    simp only [hheaded, IsHeaded, not_exists, not_and]
    exact ⟨fun hnone line hline name value => hnone name line hline value,
      fun hnone name line hline value => hnone line hline name value⟩
  · refine List.filter_congr fun name _ => ?_
    rw [Bool.eq_iff_iff, Bool.not_eq_true', ← Bool.not_eq_true, hheaded, decide_eq_true_eq]

end Scrape

end ServiceWatch
