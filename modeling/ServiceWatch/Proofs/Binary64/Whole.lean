import ServiceWatch.Proofs.Binary64.Digits
import ServiceWatch.Proofs.Binary64.PowerOfTen

/-!
# Whole numbers

A natural number of at most fifty-three significant bits is a magnitude
(`unitsOfRank_rankOfNat_mul_pow`), so below `2 ^ 53` different numbers have different ranks
(`rankOfNat_inj`).  Two things follow for such a number.  Its shortest decimal is the number itself,
up to zeros at the end (`shortest_rankOfNat`): no coarser decimal reads back, and the digits in
front of the point always do.  And the rule of two roundings is exact as long as the significand
that it starts from is: with one digit behind the point, that is up to `2 ^ 54 / 10`
(`scaledRank?_ten_mul`).
-/

namespace ServiceWatch

/-- Zeros at the end of a number are zeros at the end of its text. -/
theorem Decimal.digitChars_mul_pow {m : ℕ} (hm : 0 < m) (zeros : ℕ) :
    digitChars (m * 10 ^ zeros) = digitChars m ++ List.replicate zeros '0' := by
  induction zeros with
  | zero => simp
  | succ zeros ih =>
      have hpos : 0 < m * 10 ^ zeros := Nat.mul_pos hm (Nat.pow_pos (by decide))
      have hnext : m * 10 ^ (zeros + 1) = 10 * (m * 10 ^ zeros) + 0 := by ring
      have hzero : Nat.toDigits 10 0 = ['0'] := rfl
      rw [hnext, digitChars, ← Nat.toDigits_append_toDigits (by decide) hpos (by decide), hzero,
        ← digitChars, ih, List.append_assoc, List.replicate_succ']

theorem Decimal.length_digitChars {n : ℕ} (hn : 0 < n) :
    (digitChars n).length = digitCount n := by
  rw [digitCount, if_neg hn.ne', digitChars]

namespace Binary64

variable {m n v shift rank k : ℕ}

/-! ### Exact numbers -/

/-- The rank of the magnitude nearest to a natural number. -/
def rankOfNat (n : ℕ) : ℕ := nearestRank (n * unitsInOne) 1

theorem ofNat_eq (negative : Bool) (n : ℕ) :
    ofNat negative n = .number negative ⟨rankOfNat n, nearestRank_lt _ _⟩ := rfl

theorem exists_unitsInOne_eq : ∃ places, places = 1074 ∧ unitsInOne = 2 ^ places := by
  obtain ⟨places, hplaces⟩ : ∃ places, places = 1074 := ⟨_, rfl⟩
  refine ⟨places, hplaces, ?_⟩
  delta unitsInOne
  rw [← hplaces, Nat.pow_eq]

/-- A significand of fifty-three bits gives a magnitude at every shift. -/
theorem exists_unitsOfRank_eq (hm : m ≤ 2 * binade) (shift : ℕ) :
    ∃ rank, unitsOfRank rank = m * 2 ^ shift := by
  induction shift generalizing m with
  | zero => exact ⟨0 * binade + m, unitsOfRank_add (Or.inl rfl) hm⟩
  | succ shift ih =>
      rcases Nat.lt_or_ge m binade with hsmall | hlarge
      · -- there is room to double the significand
        obtain ⟨rank, hrank⟩ := ih (by omega : 2 * m ≤ 2 * binade)
        refine ⟨rank, ?_⟩
        rw [hrank]
        ring
      · exact ⟨_, unitsOfRank_add (Or.inr hlarge) hm⟩

/-- A natural number of at most fifty-three significant bits is its own magnitude. -/
theorem unitsOfRank_rankOfNat_mul_pow (hm : m ≤ 2 * binade) (hshift : shift ≤ 971) :
    unitsOfRank (rankOfNat (m * 2 ^ shift)) = m * 2 ^ shift * unitsInOne := by
  obtain ⟨places, hplaces, hone⟩ := exists_unitsInOne_eq
  obtain ⟨rank, hrank⟩ := exists_unitsOfRank_eq hm (shift + places)
  have hunits : m * 2 ^ shift * unitsInOne = unitsOfRank rank := by
    rw [hone, hrank, Nat.pow_add, Nat.mul_assoc]
  have hrange : rank ≤ infinityRank := by
    have htop : unitsOfRank infinityRank = 2 * binade * 2 ^ (971 + places) := by
      have hsplit : infinityRank = (971 + places) * binade + 2 * binade := by
        rw [hplaces]
        decide
      rw [hsplit]
      exact unitsOfRank_add (Or.inr (by decide)) le_rfl
    apply unitsOfRank_strictMono.le_iff_le.mp
    rw [hrank, htop]
    exact Nat.mul_le_mul hm (Nat.pow_le_pow_right (by decide) (Nat.add_le_add_right hshift places))
  rw [rankOfNat, hunits, nearestRank_unitsOfRank hrange]

theorem unitsOfRank_rankOfNat (hn : n ≤ 2 * binade) :
    unitsOfRank (rankOfNat n) = n * unitsInOne := by
  have hexact := unitsOfRank_rankOfNat_mul_pow hn (Nat.zero_le 971)
  rwa [Nat.pow_zero, Nat.mul_one] at hexact

theorem magnitude_rankOfNat (hn : n ≤ 2 * binade) : magnitude (rankOfNat n) = n := by
  have hone : (unitsInOne : ℚ) ≠ 0 := by exact_mod_cast unitsInOne_pos.ne'
  rw [magnitude, unitsOfRank_rankOfNat hn, Nat.cast_mul, mul_div_cancel_right₀ _ hone]

theorem rankOfNat_lt_infinityRank (hn : n ≤ 2 * binade) : rankOfNat n < infinityRank := by
  apply unitsOfRank_strictMono.lt_iff_lt.mp
  rw [unitsOfRank_rankOfNat hn]
  calc n * unitsInOne ≤ 2 * binade * unitsInOne := Nat.mul_le_mul_right _ hn
    _ < unitsOfRank infinityRank := by decide +kernel

theorem rankOfNat_zero : rankOfNat 0 = 0 := by decide +kernel

theorem rankOfNat_pos (hpos : 0 < n) (hn : n ≤ 2 * binade) : 0 < rankOfNat n := by
  have hzero : unitsOfRank 0 = 0 := by decide
  apply unitsOfRank_strictMono.lt_iff_lt.mp
  rw [unitsOfRank_rankOfNat hn, hzero]
  exact Nat.mul_pos hpos unitsInOne_pos

/-- Whatever is greater than an exact number has a greater rank. -/
theorem rankOfNat_lt_rankOfNat (hn : n < 2 * binade) (hv : n < v) :
    rankOfNat n < rankOfNat v := by
  have hexact := unitsOfRank_rankOfNat hn.le
  have hsucc : unitsOfRank (rankOfNat (n + 1)) = n * unitsInOne + unitsInOne := by
    rw [unitsOfRank_rankOfNat hn, Nat.succ_mul]
  have hone := unitsInOne_pos
  have hstep : rankOfNat n < rankOfNat (n + 1) := by
    apply unitsOfRank_strictMono.lt_iff_lt.mp
    omega
  have hnext : unitsOfRank (rankOfNat n + 1) ≤ unitsOfRank (rankOfNat (n + 1)) :=
    unitsOfRank_strictMono.monotone hstep
  have hgreat : n * unitsInOne + unitsInOne ≤ v * unitsInOne := by
    rw [← Nat.succ_mul]
    exact Nat.mul_le_mul_right _ hv
  apply lt_nearestRank Nat.one_pos (rankOfNat_lt_infinityRank hn.le)
  omega

/-- Only one natural number is read as an exact number. -/
theorem rankOfNat_inj (hn : n < 2 * binade) (hrank : rankOfNat v = rankOfNat n) : v = n := by
  rcases Nat.lt_trichotomy v n with hless | heq | hgreater
  · exact absurd hrank (rankOfNat_lt_rankOfNat (hless.trans hn) hless).ne
  · exact heq
  · exact absurd hrank (rankOfNat_lt_rankOfNat hn hgreater).ne'

/-! ### The shortest decimal of a whole number -/

theorem leadingExponent_rankOfNat (hpos : 0 < n) (hn : n ≤ 2 * binade) :
    leadingExponent (rankOfNat n) = Decimal.digitCount n - 1 := by
  obtain ⟨hlow, hhigh⟩ := leadingExponent_bounds (rankOfNat_pos hpos hn)
  rw [magnitude_rankOfNat hn] at hlow hhigh
  obtain ⟨before, hcount⟩ := Nat.exists_eq_succ_of_ne_zero (Decimal.digitCount_pos hpos).ne'
  obtain ⟨hlow', hhigh'⟩ := Decimal.digitCount_bounds hpos
  rw [hcount, Nat.succ_sub_one] at hlow'
  rw [hcount] at hhigh' ⊢
  have hless : (10 : ℚ) ^ leadingExponent (rankOfNat n) < 10 ^ ((before.succ : ℕ) : ℤ) := by
    rw [zpow_natCast]
    exact hlow.trans_lt (by exact_mod_cast hhigh')
  have hgreater : (10 : ℚ) ^ (before : ℤ) < 10 ^ (leadingExponent (rankOfNat n) + 1) := by
    rw [zpow_natCast]
    exact lt_of_le_of_lt (by exact_mod_cast hlow') hhigh
  rw [zpow_lt_zpow_iff_right₀ (by norm_num)] at hless hgreater
  omega

/-- Once some grid gives a decimal, the search ends there or on a coarser grid. -/
theorem shortestFrom_of_onGrid? {d : Decimal} {tries digits : ℕ}
    (hgrid : onGrid? rank (leadingExponent rank + 1 - k) = some d) (hdigits : digits ≤ k)
    (htries : k < digits + tries) :
    ∃ first, digits ≤ first ∧ first ≤ k ∧
      onGrid? rank (leadingExponent rank + 1 - first) = some (shortestFrom rank tries digits) := by
  induction tries generalizing digits with
  | zero => omega
  | succ tries ih =>
      rw [shortestFrom]
      split
      next found hfound => exact ⟨digits, le_rfl, hdigits, hfound⟩
      next hnone =>
        have hne : digits ≠ k := by
          rintro rfl
          rw [hgrid] at hnone
          exact absurd hnone (by simp)
        obtain ⟨first, hfirst, hle, hfound⟩ := ih (by omega : digits + 1 ≤ k) (by omega)
        exact ⟨first, by omega, hle, hfound⟩

theorem Decimal.units_of_exponent {d : Decimal} {e : ℕ} (he : d.exponent = e) :
    d.units = (d.digits * 10 ^ e * unitsInOne, 1) := by
  unfold Decimal.units
  rw [he]
  simp

/-- The digits in front of the point read back. -/
theorem readsBack_rankOfNat (hpos : 0 < n) (hn : n < 2 * binade) :
    readsBack (rankOfNat n) ⟨n, 0⟩ = true := by
  have hcount : Decimal.digitCount n ≤ 16 :=
    (Decimal.digitCount_le_iff hpos (by decide)).mpr (hn.trans (by decide))
  have hlow : ¬ (310 : ℤ) ≤ Decimal.digitCount n + 0 := by omega
  have hhigh : ¬ (Decimal.digitCount n + 0 : ℤ) ≤ -324 := by omega
  rw [readsBack, Decimal.nearest, if_neg hpos.ne', unitsOfRank_rankOfNat hn.le]
  simp only [if_neg hlow, if_neg hhigh, @Decimal.units_of_exponent ⟨n, 0⟩ 0 rfl, Nat.pow_zero,
    Nat.mul_one, decide_true]

theorem inPowersOfTen_rankOfNat (hn : n ≤ 2 * binade) :
    inPowersOfTen (rankOfNat n) 0 = (n * unitsInOne, unitsInOne) := by
  have hzero : (0 : ℤ) = .ofNat 0 := rfl
  rw [hzero, inPowersOfTen, Nat.pow_eq, Nat.pow_zero, Nat.mul_one, unitsOfRank_rankOfNat hn]

/-- A grid gives a decimal if the magnitude is a point of it that reads back. -/
theorem exists_onGrid?_eq_some {exponent : ℤ} {one : ℕ} (hone : 0 < one)
    (hquotient : inPowersOfTen rank exponent = (n * one, one))
    (hback : readsBack rank ⟨n, exponent⟩ = true) : ∃ d, onGrid? rank exponent = some d := by
  unfold onGrid?
  simp only [hquotient, Nat.mul_div_cancel n hone, hback]
  cases readsBack rank ⟨n + 1, exponent⟩ with
  | false => exact ⟨_, rfl⟩
  | true => exact ⟨_, rfl⟩

/-- **The shortest decimal of a whole number is that number**, with its zeros at the end counted by
the exponent. -/
theorem shortest_rankOfNat (hpos : 0 < n) (hn : n < 2 * binade) :
    ∃ e : ℕ, (shortest (rankOfNat n)).exponent = e ∧
      (shortest (rankOfNat n)).digits * 10 ^ e = n := by
  have hrank := rankOfNat_pos hpos hn.le
  have hleading := leadingExponent_rankOfNat hpos hn.le
  have hcount := Decimal.digitCount_pos hpos
  have hcount' : Decimal.digitCount n ≤ 16 :=
    (Decimal.digitCount_le_iff hpos (by decide)).mpr (hn.trans (by decide))
  -- the grid of as many digits as the number has is the one of the whole numbers
  have hwhole : leadingExponent (rankOfNat n) + 1 - (Decimal.digitCount n : ℕ) = 0 := by omega
  obtain ⟨d, hd⟩ := exists_onGrid?_eq_some unitsInOne_pos (inPowersOfTen_rankOfNat hn.le)
    (readsBack_rankOfNat hpos hn)
  rw [← hwhole] at hd
  obtain ⟨first, hfirst, hle, hfound⟩ :=
    shortestFrom_of_onGrid? hd (Nat.one_le_iff_ne_zero.mpr hcount.ne')
      (by omega : Decimal.digitCount n < 1 + 16)
  obtain ⟨hfits, hback⟩ := onGrid?_eq_some hrank hfirst hfound
  have hexponent : (shortest (rankOfNat n)).exponent = (Decimal.digitCount n - first : ℕ) := by
    rw [shortest, hfits.exponent, hleading]
    omega
  refine ⟨_, hexponent, rankOfNat_inj hn ?_⟩
  have hread := nearestRank_of_readsBack hrank (rankOfNat_lt_infinityRank hn.le) hback
  rwa [← shortest, Decimal.units_of_exponent hexponent] at hread

/-! ### Scaling a whole number -/

theorem powerOfTenRank_eq (e : ℕ) : powerOfTenRank e = rankOfNat (10 ^ e) := by
  rw [powerOfTenRank, rankOfNat, Nat.pow_eq]

theorem scaledRank?_negSucc (significand e : ℕ) :
    scaledRank? significand (.negSucc e) =
      some (overPowersOfTen (rankOfNat significand) 2 (e + 1)) := rfl

/-- Ten times a whole number, scaled down by ten, is that number again, as long as the product has
no more than fifty-three significant bits. -/
theorem scaledRank?_ten_mul (hn : 10 * n ≤ 4 * binade) :
    scaledRank? (10 * n) (.negSucc 0) = some (rankOfNat n) := by
  have hten : unitsOfRank (powerOfTenRank 1) = 10 * unitsInOne := by
    rw [powerOfTenRank_eq, Nat.pow_one, unitsOfRank_rankOfNat (by decide)]
  have hproduct : unitsOfRank (rankOfNat (10 * n)) = 10 * n * unitsInOne := by
    have hexact := unitsOfRank_rankOfNat_mul_pow (by omega : 5 * n ≤ 2 * binade)
      (by decide : 1 ≤ 971)
    have hdouble : 5 * n * 2 ^ 1 = 10 * n := by ring
    rwa [hdouble] at hexact
  have hquotient : 10 * n * unitsInOne * unitsInOne =
      10 * unitsInOne * unitsOfRank (rankOfNat n) := by
    rw [unitsOfRank_rankOfNat (by omega)]
    ring
  rw [scaledRank?_negSucc, overPowersOfTen, if_pos (by decide), overPowerOfTen, Nat.zero_add, hten,
    hproduct, hquotient, nearestRank_mul_unitsOfRank (Nat.mul_pos (by decide) unitsInOne_pos)
      (rankOfNat_lt_infinityRank (by omega)).le]

end Binary64

end ServiceWatch
