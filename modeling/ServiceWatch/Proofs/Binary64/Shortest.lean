import Mathlib.Algebra.Order.Field.Power
import Mathlib.Data.Rat.Cast.Order
import Mathlib.Tactic.FieldSimp
import Mathlib.Tactic.Linarith
import Mathlib.Tactic.Positivity
import ServiceWatch.Binary64.Shortest
import ServiceWatch.Proofs.Binary64.Rounding

/-!
# The shape of the shortest decimal

`shortest rank` searches the grids `10 ^ exponent` from the coarsest on.  Whatever grid it ends on,
the decimal has between one and seventeen digits and an exponent that follows from the magnitude
(`fits_shortest`), and it is not much greater than the magnitude: it reads back, or it is the
nearest point of the finest grid (`two_mul_value_shortest_le`).

Quotients of units are compared as rational numbers: `magnitude rank` is what a rank stands for, and
`Decimal.value` what a decimal does.
-/

namespace ServiceWatch

/-- The number that a decimal stands for. -/
def Decimal.value (d : Decimal) : ℚ := d.digits * 10 ^ d.exponent

theorem Decimal.units_spec (d : Decimal) :
    0 < d.units.2 ∧ (d.units.1 : ℚ) = d.value * Binary64.unitsInOne * d.units.2 := by
  unfold Decimal.units Decimal.value
  cases d.exponent with
  | ofNat e =>
      simp only [Nat.pow_eq]
      refine ⟨Nat.one_pos, ?_⟩
      rw [Int.ofNat_eq_natCast, zpow_natCast]
      push_cast
      ring
  | negSucc e =>
      simp only [Nat.pow_eq]
      refine ⟨Nat.pow_pos (by decide), ?_⟩
      have hten : (10 : ℚ) ^ (e + 1) ≠ 0 := pow_ne_zero _ (by decide)
      rw [zpow_negSucc, mul_right_comm]
      push_cast
      rw [inv_mul_cancel_right₀ hten]

theorem Decimal.digitCount_pos {n : ℕ} (hn : 0 < n) : 0 < digitCount n := by
  unfold digitCount
  rw [if_neg (Nat.pos_iff_ne_zero.mp hn)]
  exact Nat.length_toDigits_pos

theorem Decimal.digitCount_le_iff {n k : ℕ} (hn : 0 < n) (hk : 0 < k) :
    digitCount n ≤ k ↔ n < 10 ^ k := by
  unfold digitCount
  rw [if_neg (Nat.pos_iff_ne_zero.mp hn)]
  exact Nat.length_toDigits_le_iff (by decide) hk

/-- The number of digits is that of the tens that fit into the number. -/
theorem Decimal.digitCount_bounds {n : ℕ} (hn : 0 < n) :
    10 ^ (digitCount n - 1) ≤ n ∧ n < 10 ^ digitCount n := by
  have hcount := digitCount_pos hn
  refine ⟨?_, (digitCount_le_iff hn hcount).mp le_rfl⟩
  rcases Nat.eq_zero_or_pos (digitCount n - 1) with hone | hmore
  · rw [hone]
    exact hn
  · by_contra hless
    have := (digitCount_le_iff hn hmore).mpr (Nat.lt_of_not_le hless)
    omega

namespace Binary64

variable {rank k : ℕ}

/-- The magnitude with this rank. -/
def magnitude (rank : ℕ) : ℚ := unitsOfRank rank / unitsInOne

theorem unitsInOne_pos : 0 < unitsInOne := by decide +kernel

theorem unitsOfRank_pos (hrank : 0 < rank) : 0 < unitsOfRank rank :=
  (Nat.zero_le _).trans_lt (unitsOfRank_strictMono hrank)

/-! ### The leading exponent -/

/-- At the scale at which its digits are counted, every positive magnitude is at least one. -/
theorem scaled_pos (hrank : 0 < rank) : 0 < Nat.pow 10 scale * unitsOfRank rank / unitsInOne := by
  have hscale : unitsInOne ≤ Nat.pow 10 scale := by decide +kernel
  exact Nat.div_pos (hscale.trans (Nat.le_mul_of_pos_right _ (unitsOfRank_pos hrank)))
    unitsInOne_pos

/-- The digits that are counted are those in front of the point. -/
theorem scaled_bounds (rank : ℕ) :
    ((Nat.pow 10 scale * unitsOfRank rank / unitsInOne : ℕ) : ℚ) ≤
        magnitude rank * (10 : ℚ) ^ scale ∧
      magnitude rank * (10 : ℚ) ^ scale <
        (Nat.pow 10 scale * unitsOfRank rank / unitsInOne : ℕ) + 1 := by
  have hone : (0 : ℚ) < unitsInOne := by exact_mod_cast unitsInOne_pos
  have hquotient : magnitude rank * (10 : ℚ) ^ scale =
      ((Nat.pow 10 scale * unitsOfRank rank : ℕ) : ℚ) / unitsInOne := by
    rw [magnitude, Nat.pow_eq, Nat.cast_mul, Nat.cast_pow, Nat.cast_ofNat, div_mul_eq_mul_div,
      mul_comm]
  generalize Nat.pow 10 scale * unitsOfRank rank = num at hquotient ⊢
  rw [hquotient, le_div_iff₀ hone, div_lt_iff₀ hone]
  constructor
  · exact_mod_cast Nat.div_mul_le_self num unitsInOne
  · exact_mod_cast (Nat.div_lt_iff_lt_mul unitsInOne_pos).mp (Nat.lt_succ_self (num / unitsInOne))

/-- The first digit of a magnitude counts the power of ten that the leading exponent says. -/
theorem leadingExponent_bounds (hrank : 0 < rank) :
    (10 : ℚ) ^ leadingExponent rank ≤ magnitude rank ∧
      magnitude rank < 10 ^ (leadingExponent rank + 1) := by
  have hpos := scaled_pos hrank
  obtain ⟨hbelow, habove⟩ := scaled_bounds rank
  have hleading : leadingExponent rank =
      (Decimal.digitCount (Nat.pow 10 scale * unitsOfRank rank / unitsInOne) : ℤ) - 1 - scale := rfl
  -- all that matters of the scaled magnitude is how many digits it has
  generalize Nat.pow 10 scale * unitsOfRank rank / unitsInOne = scaled
    at hpos hbelow habove hleading
  obtain ⟨hlow, hhigh⟩ := Decimal.digitCount_bounds hpos
  obtain ⟨before, hcount⟩ := Nat.exists_eq_succ_of_ne_zero (Decimal.digitCount_pos hpos).ne'
  rw [hcount, Nat.succ_sub_one] at hlow
  rw [hcount] at hhigh hleading
  have hpower : (0 : ℚ) < 10 ^ scale := pow_pos (by norm_num) scale
  have hlower : (10 : ℚ) ^ leadingExponent rank * 10 ^ scale = 10 ^ before := by
    have hsum : leadingExponent rank + scale = before := by omega
    rw [← zpow_natCast, ← zpow_natCast, ← zpow_add₀ (by norm_num), hsum]
  have hupper : (10 : ℚ) ^ (leadingExponent rank + 1) * 10 ^ scale = 10 ^ (before + 1) := by
    rw [zpow_add_one₀ (by norm_num), mul_right_comm, hlower, pow_succ]
  constructor
  · apply le_of_mul_le_mul_right _ hpower
    calc (10 : ℚ) ^ leadingExponent rank * 10 ^ scale = 10 ^ before := hlower
      _ ≤ scaled := by exact_mod_cast hlow
      _ ≤ magnitude rank * 10 ^ scale := hbelow
  · apply lt_of_mul_lt_mul_right _ hpower.le
    calc magnitude rank * 10 ^ scale < (scaled : ℚ) + 1 := habove
      _ ≤ 10 ^ (before + 1) := by exact_mod_cast hhigh
      _ = 10 ^ (leadingExponent rank + 1) * 10 ^ scale := hupper.symm

/-- The leading exponents of finite magnitudes. -/
theorem leadingExponent_range (hrank : 0 < rank) (hfinite : rank < infinityRank) :
    -324 ≤ leadingExponent rank ∧ leadingExponent rank ≤ 308 := by
  constructor
  · have hcount := Decimal.digitCount_pos (scaled_pos hrank)
    have hscale : (scale : ℤ) = 324 := rfl
    rw [leadingExponent, hscale]
    omega
  · obtain ⟨limit, hlimit⟩ : ∃ limit, limit = 309 := ⟨_, rfl⟩
    have hone : (0 : ℚ) < unitsInOne := by exact_mod_cast unitsInOne_pos
    have htop : unitsOfRank infinityRank < Nat.pow 10 limit * unitsInOne := by
      rw [hlimit]
      decide +kernel
    have hunits : (unitsOfRank rank : ℚ) < 10 ^ limit * unitsInOne := by
      have hless := (unitsOfRank_strictMono hfinite).trans htop
      rw [Nat.pow_eq] at hless
      exact_mod_cast hless
    have hbelow : magnitude rank < 10 ^ limit := (div_lt_iff₀ hone).mpr hunits
    have hexponent := (leadingExponent_bounds hrank).1.trans_lt hbelow
    rw [← zpow_natCast, zpow_lt_zpow_iff_right₀ (by norm_num)] at hexponent
    omega

/-! ### Grids -/

/-- On the grid with `k` digits the magnitude is this quotient. -/
theorem inPowersOfTen_spec (rank : ℕ) (exponent : ℤ) :
    0 < (inPowersOfTen rank exponent).2 ∧
      ((inPowersOfTen rank exponent).1 : ℚ) / (inPowersOfTen rank exponent).2 * 10 ^ exponent =
        magnitude rank := by
  have hone : (0 : ℚ) < unitsInOne := by exact_mod_cast unitsInOne_pos
  cases exponent with
  | ofNat e =>
      simp only [inPowersOfTen, Nat.pow_eq]
      refine ⟨Nat.mul_pos unitsInOne_pos (Nat.pow_pos (by decide)), ?_⟩
      unfold magnitude
      rw [Int.ofNat_eq_natCast, zpow_natCast]
      push_cast
      field_simp
  | negSucc e =>
      simp only [inPowersOfTen, Nat.pow_eq]
      refine ⟨unitsInOne_pos, ?_⟩
      unfold magnitude
      rw [zpow_negSucc]
      push_cast
      field_simp

/-- On the grid with `k` digits the magnitude lies between two points of at most `k` digits. -/
theorem inPowersOfTen_digits (hrank : 0 < rank) (hk : 0 < k) {exponent : ℤ}
    (hexponent : exponent = leadingExponent rank + 1 - k) :
    1 ≤ (inPowersOfTen rank exponent).1 / (inPowersOfTen rank exponent).2 ∧
      (inPowersOfTen rank exponent).1 / (inPowersOfTen rank exponent).2 + 1 ≤ 10 ^ k := by
  obtain ⟨hden, hvalue⟩ := inPowersOfTen_spec rank exponent
  obtain ⟨hlow, hhigh⟩ := leadingExponent_bounds hrank
  generalize (inPowersOfTen rank exponent).1 = num at hvalue ⊢
  generalize (inPowersOfTen rank exponent).2 = den at hden hvalue ⊢
  have hden' : (0 : ℚ) < den := by exact_mod_cast hden
  have hgrid : (0 : ℚ) < 10 ^ exponent := by positivity
  have htop : (10 : ℚ) ^ (leadingExponent rank + 1) = 10 ^ k * 10 ^ exponent := by
    rw [← zpow_natCast, ← zpow_add₀ (by norm_num), hexponent]
    congr 1
    ring
  have hgridLow : (10 : ℚ) ^ exponent ≤ 10 ^ leadingExponent rank :=
    zpow_le_zpow_right₀ (by norm_num) (by omega)
  constructor
  · apply (Nat.le_div_iff_mul_le hden).mpr
    have hquotient : (1 : ℚ) ≤ num / den := by
      refine le_of_mul_le_mul_right ?_ hgrid
      rw [hvalue, one_mul]
      exact hgridLow.trans hlow
    rw [le_div_iff₀ hden'] at hquotient
    exact_mod_cast hquotient
  · apply (Nat.div_lt_iff_lt_mul hden).mpr
    have hquotient : (num : ℚ) / den < 10 ^ k := by
      refine lt_of_mul_lt_mul_right ?_ hgrid.le
      rw [hvalue, ← htop]
      exact hhigh
    rw [div_lt_iff₀ hden'] at hquotient
    exact_mod_cast hquotient

/-- The decimal is on the grid with `k` digits of the magnitude with this rank. -/
structure Fits (rank k : ℕ) (d : Decimal) : Prop where
  exponent : d.exponent = leadingExponent rank + 1 - k
  digits_pos : 0 < d.digits
  digits_le : d.digits ≤ 10 ^ k

theorem fits_of_cases (hrank : 0 < rank) (hk : 0 < k) {exponent : ℤ} {digits : ℕ}
    (hexponent : exponent = leadingExponent rank + 1 - k)
    (hdigits : digits = (inPowersOfTen rank exponent).1 / (inPowersOfTen rank exponent).2 ∨
      digits = (inPowersOfTen rank exponent).1 / (inPowersOfTen rank exponent).2 + 1) :
    Fits rank k ⟨digits, exponent⟩ := by
  obtain ⟨hlow, hhigh⟩ := inPowersOfTen_digits hrank hk hexponent
  refine ⟨hexponent, ?_, ?_⟩
  · rcases hdigits with rfl | rfl
    · exact hlow
    · exact Nat.succ_pos _
  · rcases hdigits with rfl | rfl
    · exact (Nat.le_succ _).trans hhigh
    · exact hhigh

theorem roundToEven_eq_or (num den : ℕ) :
    roundToEven num den = num / den ∨ roundToEven num den = num / den + 1 :=
  (roundToEven_cases num den).imp And.left And.left

/-- What a grid gives is on it, and reads back. -/
theorem onGrid?_eq_some (hrank : 0 < rank) (hk : 0 < k) {d : Decimal}
    (hgrid : onGrid? rank (leadingExponent rank + 1 - k) = some d) :
    Fits rank k d ∧ readsBack rank d = true := by
  unfold onGrid? at hgrid
  dsimp only at hgrid
  split at hgrid
  next hbelow habove =>
    obtain rfl := Option.some_inj.mp hgrid
    rcases roundToEven_eq_or (inPowersOfTen rank (leadingExponent rank + 1 - k)).1
      (inPowersOfTen rank (leadingExponent rank + 1 - k)).2 with heq | heq
    · exact ⟨fits_of_cases hrank hk rfl (Or.inl heq), by rw [heq]; exact hbelow⟩
    · exact ⟨fits_of_cases hrank hk rfl (Or.inr heq), by rw [heq]; exact habove⟩
  next hbelow habove =>
    obtain rfl := Option.some_inj.mp hgrid
    exact ⟨fits_of_cases hrank hk rfl (Or.inl rfl), hbelow⟩
  next hbelow habove =>
    obtain rfl := Option.some_inj.mp hgrid
    exact ⟨fits_of_cases hrank hk rfl (Or.inr rfl), habove⟩
  next => exact absurd hgrid (by simp)

/-- The decimal is not greater than the point of its grid that is nearest to the magnitude. -/
def IsNearest (rank : ℕ) (d : Decimal) : Prop :=
  2 * d.value ≤ 2 * magnitude rank + 10 ^ d.exponent

theorem isNearest_roundToEven (rank : ℕ) (exponent : ℤ) :
    IsNearest rank ⟨roundToEven (inPowersOfTen rank exponent).1 (inPowersOfTen rank exponent).2,
      exponent⟩ := by
  obtain ⟨hden, hvalue⟩ := inPowersOfTen_spec rank exponent
  generalize (inPowersOfTen rank exponent).1 = num at hvalue ⊢
  generalize (inPowersOfTen rank exponent).2 = den at hden hvalue ⊢
  have hden' : (0 : ℚ) < den := by exact_mod_cast hden
  have hgrid : (0 : ℚ) < 10 ^ exponent := by positivity
  have hnear : (2 * (roundToEven num den * den) : ℚ) ≤ 2 * num + den := by
    exact_mod_cast (@roundToEven_near num den hden).1
  have hround : 2 * (roundToEven num den : ℚ) ≤ 2 * (num / den) + 1 := by
    refine le_of_mul_le_mul_right ?_ hden'
    calc 2 * (roundToEven num den : ℚ) * den = 2 * (roundToEven num den * den) := by ring
      _ ≤ 2 * num + den := hnear
      _ = (2 * (num / den) + 1) * den := by field_simp
  unfold IsNearest Decimal.value
  calc 2 * ((roundToEven num den : ℚ) * 10 ^ exponent)
      = 2 * (roundToEven num den : ℚ) * 10 ^ exponent := by ring
    _ ≤ (2 * (num / den) + 1) * 10 ^ exponent := mul_le_mul_of_nonneg_right hround hgrid.le
    _ = 2 * (num / den * 10 ^ exponent) + 10 ^ exponent := by ring
    _ = 2 * magnitude rank + 10 ^ exponent := by rw [hvalue]

theorem shortestFrom_spec (hrank : 0 < rank) {tries digits : ℕ} (hdigits : 0 < digits) :
    ∃ k, 0 < k ∧ k ≤ digits + tries ∧ Fits rank k (shortestFrom rank tries digits) ∧
      (readsBack rank (shortestFrom rank tries digits) = true ∨
        k = digits + tries ∧ IsNearest rank (shortestFrom rank tries digits)) := by
  induction tries generalizing digits with
  | zero =>
      exact ⟨digits, hdigits, le_rfl, fits_of_cases hrank hdigits rfl (roundToEven_eq_or _ _),
        Or.inr ⟨rfl, isNearest_roundToEven rank _⟩⟩
  | succ tries ih =>
      rw [shortestFrom]
      split
      next d hgrid =>
        obtain ⟨hfits, hback⟩ := onGrid?_eq_some hrank hdigits hgrid
        exact ⟨digits, hdigits, Nat.le_add_right _ _, hfits, Or.inl hback⟩
      next =>
        obtain ⟨k, hk, hle, hfits, hspec⟩ := ih (Nat.succ_pos digits)
        refine ⟨k, hk, by omega, hfits, hspec.imp_right fun hlast => ⟨by omega, hlast.2⟩⟩

/-- The shortest decimal has between one and seventeen digits, and reads back or is nearest. -/
theorem fits_shortest (hrank : 0 < rank) :
    ∃ k, 0 < k ∧ k ≤ 17 ∧ Fits rank k (shortest rank) ∧
      (readsBack rank (shortest rank) = true ∨ k = 17 ∧ IsNearest rank (shortest rank)) :=
  @shortestFrom_spec rank hrank 16 1 Nat.one_pos

/-! ### How great a decimal may be -/

/-- A decimal that reads back is rounded to the rank: it is neither so small nor so great that it is
read as zero or infinity at once. -/
theorem nearestRank_of_readsBack {d : Decimal} (hrank : 0 < rank) (hfinite : rank < infinityRank)
    (hback : readsBack rank d = true) : nearestRank d.units.1 d.units.2 = rank := by
  unfold readsBack Decimal.nearest at hback
  have hself := nearestRank_unitsOfRank hfinite.le
  simp only [decide_eq_true_eq, ofUnits, hself] at hback
  split at hback
  next =>
    simp only [signedZero, number.injEq, Fin.ext_iff, true_and] at hback
    exact absurd hback.symm (Nat.pos_iff_ne_zero.mp hrank)
  next =>
    split at hback
    next =>
      simp only [infinity, number.injEq, Fin.ext_iff, true_and, Fin.val_last] at hback
      exact absurd hback.symm hfinite.ne
    next =>
      split at hback
      next =>
        simp only [signedZero, number.injEq, Fin.ext_iff, true_and] at hback
        exact absurd hback.symm (Nat.pos_iff_ne_zero.mp hrank)
      next => simpa only [number.injEq, Fin.ext_iff, true_and] using hback

/-- A decimal that reads back is not past the midpoint to the next magnitude. -/
theorem value_le_of_readsBack {d : Decimal} (hrank : 0 < rank) (hfinite : rank < infinityRank)
    (hback : readsBack rank d = true) :
    2 * (d.value * unitsInOne) ≤ unitsOfRank rank + unitsOfRank (rank + 1) := by
  obtain ⟨hden, hnum⟩ := Decimal.units_spec d
  have hround := nearestRank_of_readsBack hrank hfinite hback
  have hbound : 2 * d.units.1 ≤ d.units.2 * (unitsOfRank rank + unitsOfRank (rank + 1)) := by
    by_contra habove
    have hpast := lt_nearestRank hden hfinite (Nat.lt_of_not_le habove)
    rw [hround] at hpast
    exact Nat.lt_irrefl _ hpast
  generalize d.units.1 = num at hnum hbound
  generalize d.units.2 = den at hden hnum hbound
  have hden' : (0 : ℚ) < den := by exact_mod_cast hden
  refine le_of_mul_le_mul_right ?_ hden'
  calc 2 * (d.value * unitsInOne) * den = 2 * (num : ℚ) := by rw [hnum]; ring
    _ ≤ den * (unitsOfRank rank + unitsOfRank (rank + 1)) := by exact_mod_cast hbound
    _ = (unitsOfRank rank + unitsOfRank (rank + 1)) * den := by ring

/-- The greatest magnitudes, as multiples of the step between them. -/
theorem exists_step :
    ∃ step, 0 < step ∧ unitsOfRank (infinityRank - 3) = (2 * binade - 3) * step ∧
      unitsOfRank (infinityRank - 2) = (2 * binade - 2) * step ∧
      unitsOfRank (infinityRank - 1) = (2 * binade - 1) * step ∧
      unitsOfRank infinityRank = 2 * binade * step := by
  obtain ⟨shift, hshift⟩ : ∃ shift, shift = 2045 := ⟨_, rfl⟩
  have hunits : ∀ m rank, binade ≤ m → m ≤ 2 * binade → rank = 2045 * binade + m →
      unitsOfRank rank = m * 2 ^ shift := by
    intro m rank hlow hhigh hrank
    rw [hrank, ← hshift]
    exact unitsOfRank_add (Or.inr hlow) hhigh
  refine ⟨2 ^ shift, Nat.two_pow_pos shift, ?_, ?_, ?_, ?_⟩
  · exact hunits _ _ (by decide) (by decide) (by decide)
  · exact hunits _ _ (by decide) (by decide) (by decide)
  · exact hunits _ _ (by decide) (by decide) (by decide)
  · exact hunits _ _ (by decide) (by decide) (by decide)

/-- On a grid of `k + 1` digits, the last digit counts one part in `10 ^ k` of the magnitude. -/
theorem Fits.step_le {d : Decimal} (hrank : 0 < rank) (hfits : Fits rank (k + 1) d) :
    (10 : ℚ) ^ d.exponent * 10 ^ k ≤ magnitude rank := by
  have hgrid : (10 : ℚ) ^ d.exponent * 10 ^ k = 10 ^ leadingExponent rank := by
    have hsum : d.exponent + k = leadingExponent rank := by
      rw [hfits.exponent]
      push_cast
      ring
    rw [← zpow_natCast, ← zpow_add₀ (by norm_num), hsum]
  rw [hgrid]
  exact (leadingExponent_bounds hrank).1

/-- The nearest point of a grid of seventeen digits is greater by half of a step at most, which is
less than what is left of the way to the second greatest magnitude. -/
theorem two_mul_value_le_of_isNearest {d : Decimal} (hrank : 0 < rank)
    (htop : rank ≤ infinityRank - 3) (hfits : Fits rank 17 d) (hnearest : IsNearest rank d) :
    2 * (d.value * unitsInOne) ≤
      unitsOfRank (infinityRank - 3) + unitsOfRank (infinityRank - 2) := by
  have hone : (0 : ℚ) < unitsInOne := by exact_mod_cast unitsInOne_pos
  have hunits : magnitude rank * unitsInOne = unitsOfRank rank := div_mul_cancel₀ _ hone.ne'
  have hshare : (10 : ℚ) ^ d.exponent * 10 ^ 16 * unitsInOne ≤ unitsOfRank rank := by
    rw [← hunits]
    exact mul_le_mul_of_nonneg_right (hfits.step_le hrank) hone.le
  have hvalue : 2 * (d.value * unitsInOne) ≤
      2 * unitsOfRank rank + 10 ^ d.exponent * unitsInOne := by
    have hscaled := mul_le_mul_of_nonneg_right hnearest hone.le
    rw [← hunits]
    linarith
  obtain ⟨step, hstep, hthird, hsecond, -⟩ := exists_step
  have hbinade : (binade : ℚ) = 2 ^ 52 := by exact_mod_cast binade_eq
  have hthird' : (unitsOfRank (infinityRank - 3) : ℚ) = (2 * 2 ^ 52 - 3) * step := by
    rw [hthird, Nat.cast_mul, Nat.cast_sub (by decide), Nat.cast_mul, hbinade]
    norm_num
  have hsecond' : (unitsOfRank (infinityRank - 2) : ℚ) = (2 * 2 ^ 52 - 2) * step := by
    rw [hsecond, Nat.cast_mul, Nat.cast_sub (by decide), Nat.cast_mul, hbinade]
    norm_num
  have hmono : (unitsOfRank rank : ℚ) ≤ (2 * 2 ^ 52 - 3) * step := by
    rw [← hthird']
    exact_mod_cast unitsOfRank_strictMono.monotone htop
  have hstep' : (0 : ℚ) < step := by exact_mod_cast hstep
  rw [hthird', hsecond']
  linarith

/-- The shortest decimal of any magnitude but the two greatest is not past the midpoint to the
second greatest. -/
theorem two_mul_value_shortest_le (hrank : 0 < rank) (htop : rank ≤ infinityRank - 3) :
    2 * ((shortest rank).value * unitsInOne) ≤
      unitsOfRank (infinityRank - 3) + unitsOfRank (infinityRank - 2) := by
  have hmono := unitsOfRank_strictMono.monotone htop
  obtain ⟨k, hk, -, hfits, hback | ⟨rfl, hnearest⟩⟩ := fits_shortest hrank
  · have hnext : unitsOfRank (rank + 1) ≤ unitsOfRank (infinityRank - 2) :=
      unitsOfRank_strictMono.monotone (by
        have hthree : 3 ≤ infinityRank := by decide
        omega)
    have hfinite : rank < infinityRank :=
      Nat.lt_of_le_of_lt htop (Nat.sub_lt (by decide) (by decide))
    refine (value_le_of_readsBack hrank hfinite hback).trans ?_
    exact_mod_cast Nat.add_le_add hmono hnext
  · exact two_mul_value_le_of_isNearest hrank htop hfits hnearest

end Binary64

end ServiceWatch
