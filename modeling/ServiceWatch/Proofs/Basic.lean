import Mathlib.Data.List.Basic

/-!
# Lists of pairs, and results that may be failures

Scrapes and disks keep their entries in lists of pairs, of which the first with a key counts;
`lookup_of_put` is what both have to know of putting an entry in.  Readers and actions on files give
a result or a failure, and `bind_eq_ok_iff` takes a sequence of them apart.
-/

namespace ServiceWatch

theorem bind_eq_ok_iff {ε α β : Type} {first : Except ε α} {next : α → Except ε β} {result : β} :
    first >>= next = .ok result ↔ ∃ value, first = .ok value ∧ next value = .ok result := by
  cases first with
  | error failure => simp [bind, Except.bind]
  | ok value => simp [bind, Except.bind]

/-! ### Looking up a key -/

variable {Key Entry : Type} [BEq Key] [LawfulBEq Key] {key other : Key} {entry : Entry}

theorem lookup_cons_of_ne (hne : key ≠ other) (rest : List (Key × Entry)) :
    ((other, entry) :: rest).lookup key = rest.lookup key := by
  rw [List.lookup_cons, beq_false_of_ne hne]

/-- A key is found exactly when a pair has it. -/
theorem isSome_lookup_iff (pairs : List (Key × Entry)) :
    (pairs.lookup key).isSome = true ↔ ∃ entry, (key, entry) ∈ pairs := by
  induction pairs with
  | nil => simp
  | cons pair rest ih =>
      obtain ⟨place, old⟩ := pair
      by_cases hkey : key = place
      · subst hkey
        simp only [List.lookup_cons_self, Option.isSome_some, List.mem_cons, true_iff]
        exact ⟨old, Or.inl rfl⟩
      · rw [lookup_cons_of_ne hkey, ih]
        simp [hkey]

/-- Putting an entry in place of the first one with its key, or behind all others. -/
theorem lookup_of_put [DecidableEq Key] (put : List (Key × Entry) → List (Key × Entry))
    (hnil : put [] = [(key, entry)])
    (hcons : ∀ place old rest, put ((place, old) :: rest) =
      if key = place then (place, entry) :: rest else (place, old) :: put rest)
    (pairs : List (Key × Entry)) (other : Key) :
    (put pairs).lookup other = if other = key then some entry else pairs.lookup other := by
  induction pairs with
  | nil =>
      rw [hnil]
      by_cases hother : other = key
      · simp [hother]
      · rw [lookup_cons_of_ne hother, if_neg hother]
  | cons pair rest ih =>
      obtain ⟨place, old⟩ := pair
      rw [hcons]
      by_cases hplace : key = place
      · subst hplace
        rw [if_pos rfl]
        by_cases hother : other = key
        · simp [hother]
        · rw [lookup_cons_of_ne hother, lookup_cons_of_ne hother, if_neg hother]
      · rw [if_neg hplace]
        by_cases hother : other = place
        · rw [hother, List.lookup_cons_self, List.lookup_cons_self, if_neg (Ne.symm hplace)]
        · rw [lookup_cons_of_ne hother, lookup_cons_of_ne hother, ih]

/-- Leaving out every pair with one key. -/
theorem lookup_filter_ne [DecidableEq Key] (pairs : List (Key × Entry)) (key other : Key) :
    (pairs.filter fun pair => pair.1 ≠ other).lookup key =
      if key = other then none else pairs.lookup key := by
  induction pairs with
  | nil => simp
  | cons pair rest ih =>
      obtain ⟨place, old⟩ := pair
      by_cases hplace : place = other
      · rw [List.filter_cons_of_neg (by simp [hplace]), ih]
        by_cases hkey : key = other
        · simp [hkey]
        · rw [if_neg hkey, if_neg hkey, lookup_cons_of_ne (by simpa [hplace] using hkey)]
      · rw [List.filter_cons_of_pos (by simp [hplace])]
        by_cases hkey : key = place
        · simp [hkey, hplace]
        · rw [lookup_cons_of_ne hkey, lookup_cons_of_ne hkey, ih]

end ServiceWatch
