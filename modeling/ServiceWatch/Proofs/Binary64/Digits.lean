import Mathlib.Data.List.Basic
import Mathlib.Data.List.TakeWhile
import Mathlib.Tactic.Ring
import ServiceWatch.Binary64.Shortest

/-!
# Decimal digits

The text of a decimal has the digits of its significand without the zeros at the end.  They spell
the significand divided by a power of ten (`significantDigits_spec`), and the first of them is not
zero.
-/

namespace ServiceWatch.Decimal

/-- Whether a text has decimal digits only. -/
def AreDigits (cs : List Char) : Prop := ∀ c ∈ cs, c.isDigit = true

/-- The number that decimal digits spell. -/
abbrev spelled (cs : List Char) : ℕ := Nat.ofDigitChars 10 cs 0

theorem AreDigits.append {front back : List Char} (hfront : AreDigits front)
    (hback : AreDigits back) : AreDigits (front ++ back) := by
  intro c hc
  rcases List.mem_append.mp hc with hc | hc
  · exact hfront c hc
  · exact hback c hc

theorem areDigits_replicate (n : ℕ) : AreDigits (List.replicate n '0') := by
  intro c hc
  rw [List.eq_of_mem_replicate hc]
  decide

theorem areDigits_digitChars (n : ℕ) : AreDigits (digitChars n) := by
  intro c hc
  exact Nat.isDigit_of_mem_toDigits (by decide) (by decide) hc

theorem spelled_digitChars (n : ℕ) : spelled (digitChars n) = n :=
  Nat.ofDigitChars_ten_toDigits

theorem spelled_append (front back : List Char) :
    spelled (front ++ back) = 10 ^ back.length * spelled front + spelled back := by
  unfold spelled
  rw [Nat.ofDigitChars_append, Nat.ofDigitChars_eq_ofDigitChars_zero]

theorem le_ofDigitChars (cs : List Char) (n : ℕ) : n ≤ Nat.ofDigitChars 10 cs n := by
  rw [Nat.ofDigitChars_eq_ofDigitChars_zero]
  exact (Nat.le_mul_of_pos_left n (Nat.pow_pos (by decide))).trans (Nat.le_add_right _ _)

theorem spelled_replicate (n : ℕ) : spelled (List.replicate n '0') = 0 := by
  rw [spelled, Nat.ofDigitChars_replicate_zero, Nat.mul_zero]

theorem spelled_lt {cs : List Char} (hcs : AreDigits cs) : spelled cs < 10 ^ cs.length := by
  induction cs with
  | nil => decide
  | cons c cs ih =>
      have hrest := ih fun d hd => hcs d (List.mem_cons_of_mem c hd)
      have hc : c.toNat - '0'.toNat ≤ 9 := by
        have hdigit := hcs c List.mem_cons_self
        simp only [Char.isDigit, Bool.and_eq_true, decide_eq_true_eq] at hdigit
        have hhigh : c.toNat ≤ 57 := hdigit.2
        have hzero : '0'.toNat = 48 := rfl
        omega
      rw [spelled, Nat.ofDigitChars_cons, Nat.ofDigitChars_eq_ofDigitChars_zero, List.length_cons,
        Nat.pow_succ]
      calc 10 ^ cs.length * (10 * 0 + (c.toNat - '0'.toNat)) + spelled cs
          < 10 ^ cs.length * (10 * 0 + (c.toNat - '0'.toNat)) + 10 ^ cs.length :=
            Nat.add_lt_add_left hrest _
        _ = 10 ^ cs.length * (c.toNat - '0'.toNat + 1) := by ring
        _ ≤ 10 ^ cs.length * 10 := Nat.mul_le_mul_left _ (Nat.succ_le_succ hc)

/-- No positive number is written with a zero in front. -/
theorem head?_digitChars_ne {n : ℕ} (hn : 0 < n) : (digitChars n).head? ≠ some '0' := by
  induction n using Nat.strongRecOn with
  | ind n ih =>
      unfold digitChars
      rcases Nat.lt_or_ge n 10 with hsmall | hlarge
      · rw [Nat.toDigits_of_lt_base hsmall, List.head?_cons]
        intro hzero
        have := Nat.digitChar_eq_zero.mp (Option.some_inj.mp hzero)
        omega
      · rw [Nat.toDigits_of_base_le (by decide) hlarge,
          List.head?_append_of_ne_nil _ Nat.toDigits_ne_nil]
        exact ih (n / 10) (Nat.div_lt_self hn (by decide)) (by omega)

/-- The significant digits are followed by zeros only. -/
theorem exists_digitChars_eq (d : Decimal) :
    ∃ zeros, digitChars d.digits = d.significantDigits ++ List.replicate zeros '0' := by
  refine ⟨((digitChars d.digits).reverse.takeWhile (· == '0')).length, ?_⟩
  have hsplit := @List.takeWhile_append_dropWhile _ (· == '0') (digitChars d.digits).reverse
  have hzeros : (digitChars d.digits).reverse.takeWhile (· == '0') =
      List.replicate ((digitChars d.digits).reverse.takeWhile (· == '0')).length '0' := by
    apply List.eq_replicate_of_mem
    intro c hc
    simpa using List.mem_takeWhile_imp hc
  have hreverse := congrArg List.reverse hsplit
  rw [List.reverse_append, List.reverse_reverse] at hreverse
  rw [significantDigits, ← List.reverse_replicate, ← hzeros]
  exact hreverse.symm

/-- What the significant digits are, given a significand that is not zero. -/
structure SignificantDigits (d : Decimal) (zeros : ℕ) : Prop where
  areDigits : AreDigits d.significantDigits
  ne_nil : d.significantDigits ≠ []
  head?_ne : d.significantDigits.head? ≠ some '0'
  spelled_pos : 0 < spelled d.significantDigits
  digits_eq : d.digits = spelled d.significantDigits * 10 ^ zeros
  digitCount_eq : digitCount d.digits = d.significantDigits.length + zeros

theorem significantDigits_spec {d : Decimal} (hdigits : 0 < d.digits) :
    ∃ zeros, SignificantDigits d zeros := by
  obtain ⟨zeros, hchars⟩ := exists_digitChars_eq d
  have hspelled : d.digits = spelled d.significantDigits * 10 ^ zeros := by
    have heq := congrArg spelled hchars
    rw [spelled_digitChars, spelled_append, spelled_replicate, List.length_replicate] at heq
    rw [heq]
    ring
  have hpos : 0 < spelled d.significantDigits := by
    rcases Nat.eq_zero_or_pos (spelled d.significantDigits) with hzero | hpos
    · rw [hzero, Nat.zero_mul] at hspelled
      omega
    · exact hpos
  have hne : d.significantDigits ≠ [] := by
    intro hnil
    rw [hnil] at hpos
    exact absurd hpos (by decide)
  refine ⟨zeros, ?_, hne, ?_, hpos, hspelled, ?_⟩
  · intro c hc
    apply areDigits_digitChars d.digits c
    rw [hchars]
    exact List.mem_append_left _ hc
  · have hhead := head?_digitChars_ne hdigits
    rwa [hchars, List.head?_append_of_ne_nil _ hne] at hhead
  · unfold digitCount
    rw [if_neg (Nat.pos_iff_ne_zero.mp hdigits)]
    have hlength := congrArg List.length hchars
    simpa [digitChars] using hlength

end ServiceWatch.Decimal
