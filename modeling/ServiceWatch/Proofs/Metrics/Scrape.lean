import ServiceWatch.Metrics.Exposition
import ServiceWatch.Proofs.Basic

/-!
# What a scrape holds

A scrape is made by putting one entry after the other, so of several values for a name it holds the
last.  It holds a series exactly when some line of the answer is an entry for it.
-/

namespace ServiceWatch

namespace Scrape

theorem lookup_putEntry (name other : String) (value : Binary64)
    (pairs : List (String × Binary64)) :
    (putEntry other value pairs).lookup name =
      if name = other then some value else pairs.lookup name := by
  apply lookup_of_put (putEntry other value) rfl
  intro third old rest
  by_cases hthird : other = third
  · rw [putEntry, if_pos (by simpa using hthird), if_pos hthird]
  · rw [putEntry, if_neg (by simpa using hthird), if_neg hthird]

@[simp] theorem value?_put (scrape : Scrape) (entry : String × Binary64) (name : String) :
    (scrape.put entry).value? name =
      if name = entry.1 then some entry.2 else scrape.value? name :=
  lookup_putEntry name entry.1 entry.2 scrape.entries

/-- The last entry for a name counts, and behind all of them what the scrape held before. -/
theorem value?_putAll (scrape : Scrape) (entries : List (String × Binary64)) (name : String) :
    (scrape.putAll entries).value? name =
      (entries.reverse.lookup name).or (scrape.value? name) := by
  unfold putAll
  induction entries generalizing scrape with
  | nil => rfl
  | cons entry rest ih =>
      obtain ⟨other, value⟩ := entry
      rw [List.foldl_cons, ih, value?_put, List.reverse_cons, List.lookup_append, Option.or_assoc]
      by_cases hname : name = other
      · simp [hname]
      · rw [if_neg hname, lookup_cons_of_ne hname]
        rfl

theorem value?_ofEntries (entries : List (String × Binary64)) (name : String) :
    (ofEntries entries).value? name = entries.reverse.lookup name := by
  rw [ofEntries, value?_putAll]
  exact Option.or_none

/-- **A scrape holds a series exactly when a line of the answer is an entry for it.** -/
theorem contains_ofText_iff (body : String) (name : String) :
    (Scrape.ofText body).contains name = true ↔
      ∃ line ∈ Text.lines body.toList, ∃ value, Metrics.ofLine? line = some (name, value) := by
  rw [contains, ofText, value?_ofEntries, isSome_lookup_iff]
  simp only [List.mem_reverse, Metrics.entries, List.mem_filterMap]
  constructor
  · rintro ⟨value, line, hline, hentry⟩
    exact ⟨line, hline, value, hentry⟩
  · rintro ⟨line, hline, value, hentry⟩
    exact ⟨value, line, hline, hentry⟩

theorem isEmpty_eq_false_iff (scrape : Scrape) :
    scrape.isEmpty = false ↔ ∃ name, scrape.contains name = true := by
  obtain ⟨entries⟩ := scrape
  cases entries with
  | nil => simp [isEmpty, contains, value?]
  | cons entry rest =>
      obtain ⟨name, value⟩ := entry
      have hcontains : contains ⟨(name, value) :: rest⟩ name = true := by simp [contains, value?]
      exact ⟨fun _ => ⟨name, hcontains⟩, fun _ => rfl⟩

/-- A scrape holds something exactly when a line of the answer is an entry. -/
theorem isEmpty_ofText_iff (body : String) :
    (Scrape.ofText body).isEmpty = false ↔
      ∃ line ∈ Text.lines body.toList, (Metrics.ofLine? line).isSome = true := by
  simp only [isEmpty_eq_false_iff, contains_ofText_iff, Option.isSome_iff_exists, Prod.exists]
  constructor
  · rintro ⟨name, line, hline, value, hentry⟩
    exact ⟨line, hline, name, value, hentry⟩
  · rintro ⟨line, hline, name, value, hentry⟩
    exact ⟨name, line, hline, value, hentry⟩

end Scrape

end ServiceWatch
