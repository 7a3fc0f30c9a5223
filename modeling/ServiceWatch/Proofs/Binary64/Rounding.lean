import Mathlib.Data.Nat.Log
import Mathlib.Order.Monotone.Basic
import Mathlib.Tactic.Ring
import ServiceWatch.Binary64.Basic

/-!
# Rounding to a rank

Every positive rank below that of infinity is `shift * 2 ^ 52 + m` for a significand `m` below
`2 ^ 53`, and stands for `m * 2 ^ shift` units.  Of a quotient `num / den` this file shows that
`nearestRank` is nearest: a quotient on one side of the midpoint of two neighbours is never rounded
to the other side (`nearestRank_le`, `lt_nearestRank`), a magnitude is rounded to itself
(`nearestRank_unitsOfRank`), and what is rounded grows by one part in `2 ^ 53` at most
(`unitsOfRank_nearestRank_le`).
-/

namespace ServiceWatch.Binary64

variable {num den k m shift rank : ℕ}

/-! ### To the nearest integer -/

theorem roundToEven_cases (num den : ℕ) :
    roundToEven num den = num / den ∧ 2 * (num % den) ≤ den ∨
      roundToEven num den = num / den + 1 ∧ den ≤ 2 * (num % den) := by
  unfold roundToEven
  dsimp only
  split
  next hbelow => exact Or.inl ⟨rfl, hbelow.le⟩
  next hbelow =>
    split
    next habove => exact Or.inr ⟨rfl, habove.le⟩
    next habove =>
      split
      next => exact Or.inl ⟨rfl, Nat.le_of_not_lt habove⟩
      next => exact Or.inr ⟨rfl, Nat.le_of_not_lt hbelow⟩

/-- The rounded integer is off by half a step at most. -/
theorem roundToEven_near (hden : 0 < den) :
    2 * (roundToEven num den * den) ≤ 2 * num + den ∧
      2 * num ≤ 2 * (roundToEven num den * den) + den := by
  have hdivision := Nat.div_add_mod num den
  rw [Nat.mul_comm] at hdivision
  rcases roundToEven_cases num den with ⟨heq, hside⟩ | ⟨heq, hside⟩
  · rw [heq]
    omega
  · have hrest := Nat.mod_lt num hden
    have hnext : (num / den + 1) * den = num / den * den + den := Nat.succ_mul ..
    rw [heq, hnext]
    omega

theorem roundToEven_le (hbelow : 2 * num < (2 * k + 1) * den) : roundToEven num den ≤ k := by
  have hden : 0 < den := by
    rcases Nat.eq_zero_or_pos den with hzero | hpos
    · simp [hzero] at hbelow
    · exact hpos
  by_contra hgreater
  have hstep : (k + 1) * den ≤ roundToEven num den * den :=
    Nat.mul_le_mul_right den (Nat.lt_of_not_le hgreater)
  have hnear := (@roundToEven_near num den hden).1
  have hdouble : (2 * k + 1) * den + den = 2 * ((k + 1) * den) := by ring
  omega

theorem le_roundToEven (hden : 0 < den) (habove : (2 * k + 1) * den < 2 * num) :
    k + 1 ≤ roundToEven num den := by
  by_contra hless
  have hstep : roundToEven num den * den ≤ k * den :=
    Nat.mul_le_mul_right den (Nat.le_of_lt_succ (Nat.lt_of_not_le hless))
  have hnear := (@roundToEven_near num den hden).2
  have hdouble : (2 * k + 1) * den = 2 * (k * den) + den := by ring
  omega

/-! ### Ranks and significands -/

theorem binade_eq : binade = 2 ^ 52 := by decide

/-- A significand at a shift is what its rank stands for; the next power of two, which is a
significand at the next shift, fits the formula too. -/
theorem unitsOfRank_add (hlow : shift = 0 ∨ binade ≤ m) (hhigh : m ≤ 2 * binade) :
    unitsOfRank (shift * binade + m) = m * 2 ^ shift := by
  have hpos : 0 < binade := by decide
  unfold unitsOfRank
  rcases Nat.lt_or_ge (shift * binade + m) binade with hsub | hnormal
  · have hshift : shift = 0 := by
      rcases hlow with hzero | hlarge
      · exact hzero
      · omega
    rw [if_pos hsub, hshift]
    simp
  · rw [if_neg (Nat.not_lt.mpr hnormal), Nat.pow_eq]
    have hlarge : binade ≤ m := by
      rcases hlow with hzero | hlarge
      · simpa [hzero] using hnormal
      · exact hlarge
    obtain ⟨fraction, rfl⟩ := Nat.exists_eq_add_of_le hlarge
    rcases Nat.lt_or_ge fraction binade with hsmall | htop
    · -- the exponent field is the shift and one
      have hsum : shift * binade + (binade + fraction) = fraction + binade * (shift + 1) := by ring
      rw [hsum, Nat.add_mul_mod_self_left, Nat.add_mul_div_left _ _ hpos,
        Nat.mod_eq_of_lt hsmall, Nat.div_eq_of_lt hsmall]
      simp
    · -- the fraction is full, so the rank is the first of the next exponent
      have hfraction : fraction = binade := by omega
      have hsum : shift * binade + (binade + fraction) = binade * (shift + 2) := by
        rw [hfraction]
        ring
      rw [hsum, Nat.mul_mod_right, Nat.mul_div_cancel_left _ hpos, hfraction]
      have hexponent : shift + 2 - 1 = shift + 1 := rfl
      rw [hexponent, Nat.pow_succ]
      ring

/-- The significand and the shift of a rank. -/
theorem exists_shift (rank : ℕ) :
    ∃ shift m, rank = shift * binade + m ∧ (shift = 0 ∨ binade ≤ m) ∧ m < 2 * binade := by
  have hpos : 0 < binade := by decide
  rcases Nat.lt_or_ge rank binade with hsub | hnormal
  · exact ⟨0, rank, by simp, Or.inl rfl, by omega⟩
  · have hdivision := Nat.div_add_mod rank binade
    have hrest := Nat.mod_lt rank hpos
    have hone : 1 ≤ rank / binade := (Nat.one_le_div_iff hpos).mpr hnormal
    obtain ⟨shift, hshift⟩ := Nat.exists_eq_add_of_le hone
    refine ⟨shift, binade + rank % binade, ?_, Or.inr (Nat.le_add_right _ _), by omega⟩
    rw [hshift] at hdivision
    have hsum : binade * (1 + shift) = shift * binade + binade := by ring
    omega

theorem unitsOfRank_succ (hlow : shift = 0 ∨ binade ≤ m) (hhigh : m < 2 * binade) :
    unitsOfRank (shift * binade + m + 1) = (m + 1) * 2 ^ shift := by
  rw [Nat.add_assoc]
  exact unitsOfRank_add (hlow.imp_right Nat.le_succ_of_le) (Nat.succ_le_of_lt hhigh)

theorem unitsOfRank_strictMono : StrictMono unitsOfRank := by
  apply strictMono_nat_of_lt_succ
  intro rank
  obtain ⟨shift, m, rfl, hlow, hhigh⟩ := exists_shift rank
  rw [unitsOfRank_add hlow hhigh.le, unitsOfRank_succ hlow hhigh]
  exact Nat.mul_lt_mul_of_pos_right (Nat.lt_succ_self m) (Nat.two_pow_pos shift)

/-! ### To the nearest rank -/

/-- The shift at which a quotient has a significand of fifty-three bits, or none if it is small. -/
theorem exists_nearestRank_eq (num den : ℕ) :
    ∃ shift, (shift = 0 ∨ binade * 2 ^ shift ≤ num / den) ∧
      num / den < 2 * binade * 2 ^ shift ∧
      nearestRank num den =
        min infinityRank (shift * binade + roundToEven num (den * 2 ^ shift)) := by
  refine ⟨Nat.log2 (num / den) - 52, ?_, ?_, rfl⟩
  · rcases Nat.eq_zero_or_pos (Nat.log2 (num / den) - 52) with hzero | hpos
    · exact Or.inl hzero
    · apply Or.inr
      have hne : num / den ≠ 0 := by
        intro hzero
        simp [hzero] at hpos
      have hexponent : 52 + (Nat.log2 (num / den) - 52) = Nat.log2 (num / den) := by omega
      rw [binade_eq, ← Nat.pow_add, hexponent]
      exact Nat.log2_self_le hne
  · have htwo : 2 * binade = 2 ^ 53 := by decide
    rw [htwo, ← Nat.pow_add]
    calc num / den < 2 ^ (Nat.log2 (num / den) + 1) := Nat.lt_log2_self
      _ ≤ 2 ^ (53 + (Nat.log2 (num / den) - 52)) :=
          Nat.pow_le_pow_right (by decide) (by omega)

theorem roundToEven_le_top (hden : 0 < den) (hhigh : num / den < 2 * binade * 2 ^ shift) :
    roundToEven num (den * 2 ^ shift) ≤ 2 * binade := by
  apply roundToEven_le
  have hnum : num < 2 * binade * 2 ^ shift * den := (Nat.div_lt_iff_lt_mul hden).mp hhigh
  calc 2 * num < 2 * (2 * binade * 2 ^ shift * den) := by omega
    _ = 2 * (2 * binade) * (den * 2 ^ shift) := by ring
    _ ≤ (2 * (2 * binade) + 1) * (den * 2 ^ shift) :=
        Nat.mul_le_mul_right _ (Nat.le_succ _)

theorem binade_le_roundToEven (hden : 0 < den) (hlow : binade * 2 ^ shift ≤ num / den) :
    binade ≤ roundToEven num (den * 2 ^ shift) := by
  have hpos : 0 < den * 2 ^ shift := Nat.mul_pos hden (Nat.two_pow_pos shift)
  have hnum : binade * 2 ^ shift * den ≤ num := (Nat.le_div_iff_mul_le hden).mp hlow
  have hquotient : binade ≤ num / (den * 2 ^ shift) := by
    apply (Nat.le_div_iff_mul_le hpos).mpr
    calc binade * (den * 2 ^ shift) = binade * 2 ^ shift * den := by ring
      _ ≤ num := hnum
  rcases roundToEven_cases num (den * 2 ^ shift) with ⟨heq, -⟩ | ⟨heq, -⟩
  · rw [heq]
    exact hquotient
  · rw [heq]
    omega

/-- What is below the midpoint behind a significand has no more bits than the significand. -/
theorem shift_le_of_below {fine : ℕ} (hden : 0 < den)
    (hlow : fine = 0 ∨ binade * 2 ^ fine ≤ num / den) (hhigh : m < 2 * binade)
    (hbelow : 2 * num < (2 * m + 1) * (den * 2 ^ shift)) : fine ≤ shift := by
  rcases hlow with rfl | hlow
  · exact Nat.zero_le shift
  · by_contra hgreater
    have hbits : 2 * binade * 2 ^ shift ≤ num / den := by
      refine le_trans ?_ hlow
      calc 2 * binade * 2 ^ shift = binade * 2 ^ (shift + 1) := by ring
        _ ≤ binade * 2 ^ fine :=
            Nat.mul_le_mul_left _ (Nat.pow_le_pow_right (by decide) (by omega))
    have hnum : 2 * binade * 2 ^ shift * den ≤ num := (Nat.le_div_iff_mul_le hden).mp hbits
    have hsmall : (2 * m + 1) * (den * 2 ^ shift) ≤ 2 * (2 * binade * 2 ^ shift * den) := by
      calc (2 * m + 1) * (den * 2 ^ shift) ≤ 4 * binade * (den * 2 ^ shift) :=
            Nat.mul_le_mul_right _ (by omega)
        _ = 2 * (2 * binade * 2 ^ shift * den) := by ring
    omega

/-- What is above the midpoint behind a significand has no fewer bits than the significand. -/
theorem shift_le_of_above {fine : ℕ} (hden : 0 < den)
    (hhigh : num / den < 2 * binade * 2 ^ fine) (hlow : shift = 0 ∨ binade ≤ m)
    (habove : (2 * m + 1) * (den * 2 ^ shift) < 2 * num) : shift ≤ fine := by
  rcases hlow with rfl | hlarge
  · exact Nat.zero_le fine
  · by_contra hless
    have hbits : num / den < binade * 2 ^ shift := by
      refine hhigh.trans_le ?_
      calc 2 * binade * 2 ^ fine = binade * 2 ^ (fine + 1) := by ring
        _ ≤ binade * 2 ^ shift :=
            Nat.mul_le_mul_left _ (Nat.pow_le_pow_right (by decide) (by omega))
    have hnum : num < binade * 2 ^ shift * den := (Nat.div_lt_iff_lt_mul hden).mp hbits
    have hgreat : 2 * (binade * 2 ^ shift * den) ≤ (2 * m + 1) * (den * 2 ^ shift) := by
      calc 2 * (binade * 2 ^ shift * den) = 2 * binade * (den * 2 ^ shift) := by ring
        _ ≤ (2 * m + 1) * (den * 2 ^ shift) := Nat.mul_le_mul_right _ (by omega)
    omega

/-- What is below the midpoint of a magnitude and the next is not rounded above it. -/
theorem nearestRank_le (hden : 0 < den)
    (hbelow : 2 * num < den * (unitsOfRank rank + unitsOfRank (rank + 1))) :
    nearestRank num den ≤ rank := by
  obtain ⟨shift, m, rfl, hlow, hhigh⟩ := exists_shift rank
  rw [unitsOfRank_add hlow hhigh.le, unitsOfRank_succ hlow hhigh] at hbelow
  obtain ⟨fine, hlow', hhigh', heq⟩ := exists_nearestRank_eq num den
  rw [heq]
  refine (Nat.min_le_right ..).trans ?_
  have hmiddle : den * (m * 2 ^ shift + (m + 1) * 2 ^ shift) =
      (2 * m + 1) * (den * 2 ^ shift) := by ring
  rw [hmiddle] at hbelow
  rcases (shift_le_of_below hden hlow' hhigh hbelow).lt_or_eq with hless | rfl
  · -- on a finer grid, even the greatest significand has a smaller rank
    have htop := roundToEven_le_top hden hhigh'
    have hlarge : binade ≤ m := by
      rcases hlow with rfl | hlarge
      · exact absurd hless (Nat.not_lt_zero fine)
      · exact hlarge
    have hstep : (fine + 1) * binade ≤ shift * binade := Nat.mul_le_mul_right _ hless
    rw [Nat.succ_mul] at hstep
    omega
  · exact Nat.add_le_add_left (roundToEven_le hbelow) _

/-- What is above the midpoint of a magnitude and the next is rounded above it. -/
theorem lt_nearestRank (hden : 0 < den) (hrank : rank < infinityRank)
    (habove : den * (unitsOfRank rank + unitsOfRank (rank + 1)) < 2 * num) :
    rank < nearestRank num den := by
  obtain ⟨shift, m, rfl, hlow, hhigh⟩ := exists_shift rank
  rw [unitsOfRank_add hlow hhigh.le, unitsOfRank_succ hlow hhigh] at habove
  obtain ⟨fine, hlow', hhigh', heq⟩ := exists_nearestRank_eq num den
  rw [heq]
  refine Nat.lt_min.mpr ⟨hrank, ?_⟩
  have hmiddle : den * (m * 2 ^ shift + (m + 1) * 2 ^ shift) =
      (2 * m + 1) * (den * 2 ^ shift) := by ring
  rw [hmiddle] at habove
  rcases (shift_le_of_above hden hhigh' hlow habove).lt_or_eq with hless | rfl
  · -- on a coarser grid, even the least significand has a greater rank
    have hround : binade ≤ roundToEven num (den * 2 ^ fine) := by
      rcases hlow' with rfl | hlow'
      · exact absurd hless (Nat.not_lt_zero shift)
      · exact binade_le_roundToEven hden hlow'
    have hstep : (shift + 1) * binade ≤ fine * binade := Nat.mul_le_mul_right _ hless
    rw [Nat.succ_mul] at hstep
    omega
  · have hpos : 0 < den * 2 ^ shift := Nat.mul_pos hden (Nat.two_pow_pos shift)
    exact Nat.add_lt_add_left (le_roundToEven hpos habove) _

/-- A quotient that is a magnitude is rounded to it. -/
theorem nearestRank_mul_unitsOfRank (hden : 0 < den) (hrank : rank ≤ infinityRank) :
    nearestRank (den * unitsOfRank rank) den = rank := by
  refine Nat.le_antisymm (nearestRank_le hden ?_) ?_
  · have hnext : den * unitsOfRank rank < den * unitsOfRank (rank + 1) :=
      Nat.mul_lt_mul_of_pos_left (unitsOfRank_strictMono (Nat.lt_succ_self rank)) hden
    rw [Nat.mul_add]
    omega
  · cases rank with
    | zero => exact Nat.zero_le _
    | succ before =>
        have hnext : den * unitsOfRank before < den * unitsOfRank (before + 1) :=
          Nat.mul_lt_mul_of_pos_left (unitsOfRank_strictMono (Nat.lt_succ_self before)) hden
        refine lt_nearestRank hden hrank ?_
        rw [Nat.mul_add]
        omega

/-- A magnitude is rounded to itself. -/
theorem nearestRank_unitsOfRank (hrank : rank ≤ infinityRank) :
    nearestRank (unitsOfRank rank) 1 = rank := by
  simpa using nearestRank_mul_unitsOfRank Nat.one_pos hrank

/-- Rounding adds one part in `2 ^ 53` at most to what is no less than `2 ^ 52` units. -/
theorem unitsOfRank_nearestRank_le (hden : 0 < den) (hlarge : binade * den ≤ num) :
    unitsOfRank (nearestRank num den) * den * (2 * binade) ≤ num * (2 * binade + 1) := by
  obtain ⟨shift, hlow, hhigh, heq⟩ := exists_nearestRank_eq num den
  have hround : binade * 2 ^ shift ≤ num / den := by
    rcases hlow with rfl | hlow
    · simpa using (Nat.le_div_iff_mul_le hden).mpr hlarge
    · exact hlow
  have hpos : 0 < den * 2 ^ shift := Nat.mul_pos hden (Nat.two_pow_pos shift)
  have hunits : unitsOfRank (nearestRank num den) ≤
      roundToEven num (den * 2 ^ shift) * 2 ^ shift := by
    rw [heq, ← unitsOfRank_add (Or.inr (binade_le_roundToEven hden hround))
      (roundToEven_le_top hden hhigh)]
    exact unitsOfRank_strictMono.monotone (Nat.min_le_right ..)
  have hnear := (@roundToEven_near num _ hpos).1
  have hstep : binade * 2 ^ shift * den ≤ num := (Nat.le_div_iff_mul_le hden).mp hround
  calc unitsOfRank (nearestRank num den) * den * (2 * binade)
      ≤ roundToEven num (den * 2 ^ shift) * 2 ^ shift * den * (2 * binade) :=
        Nat.mul_le_mul_right _ (Nat.mul_le_mul_right _ hunits)
    _ = 2 * (roundToEven num (den * 2 ^ shift) * (den * 2 ^ shift)) * binade := by ring
    _ ≤ (2 * num + den * 2 ^ shift) * binade := Nat.mul_le_mul_right _ hnear
    _ = num * (2 * binade) + binade * 2 ^ shift * den := by ring
    _ ≤ num * (2 * binade) + num := Nat.add_le_add_left hstep _
    _ = num * (2 * binade + 1) := by ring

end ServiceWatch.Binary64
