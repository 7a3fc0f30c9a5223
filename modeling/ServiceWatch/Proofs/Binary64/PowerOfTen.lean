import ServiceWatch.Binary64.PowerOfTen
import ServiceWatch.Proofs.Binary64.Shortest

/-!
# Scaling does not overflow

The rule of two roundings may give a neighbour of the number that a decimal stands for.  This file
shows that it gives some finite magnitude whenever the decimal is not past the midpoint to the
second greatest magnitude (`exists_scaledRank?`): the two roundings and the inexact power of ten
together add less than the rest of the way to infinity.
-/

namespace ServiceWatch.Binary64

variable {significand e : ℕ} {exponent : ℤ}

theorem nearestRank_le_infinityRank (num den : ℕ) : nearestRank num den ≤ infinityRank :=
  Nat.min_le_left ..

theorem overPowersOfTen_le (rank tries e : ℕ) : overPowersOfTen rank tries e ≤ infinityRank := by
  induction tries generalizing rank e with
  | zero =>
      unfold overPowersOfTen
      split
      next => exact nearestRank_le_infinityRank _ _
      next => exact Nat.zero_le _
  | succ tries ih =>
      unfold overPowersOfTen
      split
      next => exact nearestRank_le_infinityRank _ _
      next => exact ih _ _

/-- A rounded natural number is at most one part in `2 ^ 53` too great. -/
theorem unitsOfRank_nearestRank_nat_le {n : ℕ} (hn : 0 < n) :
    unitsOfRank (nearestRank (n * unitsInOne) 1) * (2 * binade) ≤
      n * unitsInOne * (2 * binade + 1) := by
  have hbinade : binade ≤ unitsInOne := by decide +kernel
  have hlarge : binade * 1 ≤ n * unitsInOne := by
    rw [Nat.mul_one]
    exact hbinade.trans (Nat.le_mul_of_pos_left _ hn)
  simpa using unitsOfRank_nearestRank_le Nat.one_pos hlarge

/-- A product with a power of ten stays finite that is not past the midpoint to the second greatest
magnitude. -/
theorem timesPowerOfTen_lt (hsignificand : 0 < significand)
    (hbound : 2 * (significand * 10 ^ e * unitsInOne) ≤
      unitsOfRank (infinityRank - 3) + unitsOfRank (infinityRank - 2)) :
    timesPowerOfTen (nearestRank (significand * unitsInOne) 1) e < infinityRank := by
  obtain ⟨step, hstep, hthird, hsecond, hfirst, htop⟩ := exists_step
  have hleft := unitsOfRank_nearestRank_nat_le hsignificand
  have hright : unitsOfRank (powerOfTenRank e) * (2 * binade) ≤
      10 ^ e * unitsInOne * (2 * binade + 1) :=
    unitsOfRank_nearestRank_nat_le (Nat.pow_pos (by decide))
  unfold timesPowerOfTen
  generalize unitsOfRank (nearestRank (significand * unitsInOne) 1) = left at hleft ⊢
  generalize unitsOfRank (powerOfTenRank e) = right at hright ⊢
  refine Nat.lt_of_le_pred (by decide) (nearestRank_le unitsInOne_pos ?_)
  rw [Nat.pred_eq_sub_one, Nat.sub_add_cancel (by decide), hfirst, htop]
  rw [hthird, hsecond] at hbound
  have hone := unitsInOne_pos
  generalize unitsInOne = one at hleft hright hbound hone ⊢
  have hroom : 0 < one * step := Nat.mul_pos hone hstep
  apply Nat.lt_of_mul_lt_mul_right (a := (2 * binade) * (2 * binade))
  calc 2 * (left * right) * ((2 * binade) * (2 * binade))
      = 2 * (left * (2 * binade) * (right * (2 * binade))) := by ring
    _ ≤ 2 * (significand * one * (2 * binade + 1) * (10 ^ e * one * (2 * binade + 1))) :=
        Nat.mul_le_mul_left _ (Nat.mul_le_mul hleft hright)
    _ = 2 * (significand * 10 ^ e * one) * (one * ((2 * binade + 1) * (2 * binade + 1))) := by ring
    _ ≤ ((2 * binade - 3) * step + (2 * binade - 2) * step) *
          (one * ((2 * binade + 1) * (2 * binade + 1))) := Nat.mul_le_mul_right _ hbound
    _ = one * step * (((2 * binade - 3) + (2 * binade - 2)) *
          ((2 * binade + 1) * (2 * binade + 1))) := by ring
    _ < one * step * (((2 * binade - 1) + 2 * binade) * ((2 * binade) * (2 * binade))) :=
        Nat.mul_lt_mul_of_pos_left (by decide) hroom
    _ = one * ((2 * binade - 1) * step + 2 * binade * step) * ((2 * binade) * (2 * binade)) := by
        ring

/-- A power of ten in range is one that the rule of two roundings can scale by. -/
theorem le_greatestPower (hsignificand : 0 < significand)
    (hbound : 2 * (significand * 10 ^ e * unitsInOne) ≤
      unitsOfRank (infinityRank - 3) + unitsOfRank (infinityRank - 2)) : e ≤ greatestPower := by
  by_contra hgreat
  obtain ⟨first, hfirst⟩ : ∃ first, first = greatestPower + 1 := ⟨_, rfl⟩
  have htop : unitsOfRank infinityRank < Nat.pow 10 first * unitsInOne := by
    rw [hfirst]
    decide +kernel
  have hthird : unitsOfRank (infinityRank - 3) ≤ unitsOfRank infinityRank :=
    unitsOfRank_strictMono.monotone (Nat.sub_le _ _)
  have hsecond : unitsOfRank (infinityRank - 2) ≤ unitsOfRank infinityRank :=
    unitsOfRank_strictMono.monotone (Nat.sub_le _ _)
  have hpower : Nat.pow 10 first ≤ 10 ^ e :=
    Nat.pow_le_pow_right (by decide) (hfirst ▸ Nat.lt_of_not_le hgreat)
  have hscaled : Nat.pow 10 first * unitsInOne ≤ significand * 10 ^ e * unitsInOne :=
    Nat.mul_le_mul_right _ (hpower.trans (Nat.le_mul_of_pos_left _ hsignificand))
  omega

theorem exists_scaledRank?_of_neg (hexponent : exponent < 0) (significand : ℕ) :
    ∃ rank, scaledRank? significand exponent = some rank ∧ rank ≤ infinityRank := by
  unfold scaledRank?
  cases exponent with
  | negSucc e => exact ⟨_, rfl, overPowersOfTen_le _ _ _⟩
  | ofNat e => exact absurd hexponent (Int.not_lt.mpr (Int.natCast_nonneg e))

/-- **Scaling gives some magnitude**: always by a negative exponent, and by another if the number is
not past the midpoint to the second greatest magnitude. -/
theorem exists_scaledRank? (hsignificand : 0 < significand)
    (hbound : 0 ≤ exponent → 2 * ((significand : ℚ) * 10 ^ exponent * unitsInOne) ≤
      unitsOfRank (infinityRank - 3) + unitsOfRank (infinityRank - 2)) :
    ∃ rank, scaledRank? significand exponent = some rank ∧ rank ≤ infinityRank := by
  cases exponent with
  | negSucc e => exact exists_scaledRank?_of_neg (Int.negSucc_lt_zero e) significand
  | ofNat e =>
      have hbound' : 2 * (significand * 10 ^ e * unitsInOne) ≤
          unitsOfRank (infinityRank - 3) + unitsOfRank (infinityRank - 2) := by
        have hrational := hbound (Int.natCast_nonneg e)
        rw [Int.ofNat_eq_natCast, zpow_natCast] at hrational
        exact_mod_cast hrational
      have hproduct := timesPowerOfTen_lt hsignificand hbound'
      simp only [scaledRank?, if_pos (le_greatestPower hsignificand hbound'), if_pos hproduct]
      exact ⟨_, rfl, hproduct.le⟩

end ServiceWatch.Binary64
