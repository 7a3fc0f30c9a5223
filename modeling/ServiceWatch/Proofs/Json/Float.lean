import ServiceWatch.Proofs.Binary64.Whole
import ServiceWatch.Proofs.Json.Number

/-!
# The text of a floating-point number is read again

The digits of a floating-point number are written so that they read back when they are rounded
correctly.  The reader rounds twice, so what it gives may be a neighbour of the number that was
written: `reread value` is what the text of `value` is read as.  Every finite number is read as some
number (`readBinary64_floatText`).

## Strategy

Whatever shape the text has, it is a `Literal`, so only its significand and its scale matter.  In
every shape but one the scale is negative, and scaling by a negative exponent cannot fail.  A
positive scale occurs with an exponent alone, where the literal stands for the shortest decimal
itself (`scientificLiteral_value`).  That is not past the midpoint to the second greatest magnitude,
or belongs to one of the two greatest, which are looked at one by one (`exists_scaled_top`).
-/

namespace ServiceWatch

namespace Decimal

open Json (Literal)

variable {d : Decimal}

/-- A positional text as a literal. -/
def positionalLiteral (d : Decimal) : Literal :=
  match d.leading with
  | .ofNat e =>
    { whole := d.significantDigits.take (e + 1) ++
        List.replicate (e + 1 - d.significantDigits.length) '0'
      fraction := if (d.significantDigits.drop (e + 1)).isEmpty then ['0']
        else d.significantDigits.drop (e + 1)
      exponent := none }
  | .negSucc e =>
    { whole := ['0'], fraction := List.replicate e '0' ++ d.significantDigits, exponent := none }

/-- A scientific text as a literal. -/
def scientificLiteral (d : Decimal) : Literal where
  whole := d.significantDigits.take 1
  fraction := d.significantDigits.drop 1
  exponent := some d.leading

/-- The decimal has at most seventeen digits and no great exponent. -/
structure IsModest (d : Decimal) : Prop where
  digits_pos : 0 < d.digits
  digits_le : d.digits ≤ 10 ^ 17
  leading_le : d.leading.natAbs ≤ 400

theorem IsModest.digitCount_le (hd : d.IsModest) : digitCount d.digits ≤ 18 :=
  (digitCount_le_iff hd.digits_pos (by decide)).mpr
    (hd.digits_le.trans_lt (by decide))

theorem IsModest.length_le (hd : d.IsModest) : d.significantDigits.length ≤ 18 := by
  obtain ⟨zeros, hdigits⟩ := significantDigits_spec hd.digits_pos
  have hcount := hd.digitCount_le
  rw [hdigits.digitCount_eq] at hcount
  omega

theorem IsModest.spelled_le (hd : d.IsModest) : spelled d.significantDigits ≤ 10 ^ 17 := by
  obtain ⟨zeros, hdigits⟩ := significantDigits_spec hd.digits_pos
  have hle := hd.digits_le
  rw [hdigits.digits_eq] at hle
  exact (Nat.le_mul_of_pos_right _ (Nat.pow_pos (by decide))).trans hle

theorem text_positionalLiteral (hd : 0 < d.digits) : d.positionalLiteral.text = d.positional := by
  obtain ⟨zeros, hdigits⟩ := significantDigits_spec hd
  unfold positionalLiteral positional Literal.text Literal.fractionText Literal.scaleText
  cases d.leading with
  | ofNat e =>
      by_cases hempty : (d.significantDigits.drop (e + 1)).isEmpty
      · simp [hempty]
      · have hne : d.significantDigits.drop (e + 1) ≠ [] := by simpa using hempty
        simp [hempty, hne]
  | negSucc e => simp [hdigits.ne_nil]

theorem text_scientificLiteral (hd : 0 < d.digits) : d.scientificLiteral.text = d.scientific := by
  obtain ⟨zeros, hdigits⟩ := significantDigits_spec hd
  unfold scientificLiteral scientific Literal.text Literal.fractionText Literal.scaleText
  cases hchars : d.significantDigits with
  | nil => exact absurd hchars hdigits.ne_nil
  | cons c cs =>
      cases d.leading with
      | ofNat e => cases cs <;> simp [Json.exponentText]
      | negSucc e => cases cs <;> simp [Json.exponentText]

theorem AreDigits.of_subset {cs ds : List Char} (hds : AreDigits ds) (hsubset : cs ⊆ ds) :
    AreDigits cs := fun c hc => hds c (hsubset hc)

theorem head?_take_succ {cs : List Char} (n : ℕ) : (cs.take (n + 1)).head? = cs.head? := by
  cases cs <;> rfl

theorem significand_scientificLiteral (d : Decimal) :
    d.scientificLiteral.significand = spelled d.significantDigits := by
  rw [Literal.significand, scientificLiteral, List.take_append_drop]

theorem wellFormed_scientificLiteral (hd : d.IsModest) : d.scientificLiteral.WellFormed := by
  obtain ⟨zeros, hdigits⟩ := significantDigits_spec hd.digits_pos
  have hlength := hd.length_le
  refine ⟨hdigits.areDigits.of_subset (List.take_subset 1 _), ?_, Or.inr ?_,
    hdigits.areDigits.of_subset (List.drop_subset 1 _), Or.inr rfl, ?_, ?_, ?_⟩
  · simpa [scientificLiteral] using hdigits.ne_nil
  · rw [scientificLiteral, head?_take_succ]
    exact hdigits.head?_ne
  · rw [significand_scientificLiteral]
    exact hd.spelled_le.trans (by decide)
  · rw [scientificLiteral, List.length_drop]
    exact (Nat.sub_le _ _).trans (hlength.trans (by decide))
  · intro e he
    obtain rfl : d.leading = e := Option.some_inj.mp he
    exact hd.leading_le.trans (by decide)

/-- Below one, zeros stand between the point and the digits. -/
theorem positionalLiteral_of_small {e : ℕ} (he : d.leading = .negSucc e) :
    d.positionalLiteral = ⟨['0'], List.replicate e '0' ++ d.significantDigits, none⟩ := by
  rw [positionalLiteral, he]

/-- A whole number has zeros up to the point and one behind it. -/
theorem positionalLiteral_of_whole {e : ℕ} (he : d.leading = .ofNat e)
    (hwhole : d.significantDigits.length ≤ e + 1) :
    d.positionalLiteral =
      ⟨d.significantDigits ++ List.replicate (e + 1 - d.significantDigits.length) '0', ['0'],
        none⟩ := by
  rw [positionalLiteral, he]
  simp [List.take_of_length_le hwhole, List.drop_of_length_le hwhole]

/-- Otherwise the point stands among the digits. -/
theorem positionalLiteral_of_mixed {e : ℕ} (he : d.leading = .ofNat e)
    (hmixed : e + 1 < d.significantDigits.length) :
    d.positionalLiteral =
      ⟨d.significantDigits.take (e + 1), d.significantDigits.drop (e + 1), none⟩ := by
  have hzeros : e + 1 - d.significantDigits.length = 0 := Nat.sub_eq_zero_of_le hmixed.le
  have hne : ¬ d.significantDigits.length ≤ e + 1 := Nat.not_le.mpr hmixed
  rw [positionalLiteral, he]
  simp [hzeros, hne]

theorem wellFormed_of_small (hd : d.IsModest) {e : ℕ} (he : d.leading = .negSucc e) :
    d.positionalLiteral.WellFormed := by
  obtain ⟨zeros, hdigits⟩ := significantDigits_spec hd.digits_pos
  have hlength := hd.length_le
  have hroom : e + 1 ≤ 400 := by
    have hleading := hd.leading_le
    rwa [he] at hleading
  rw [positionalLiteral_of_small he]
  refine ⟨by simp [AreDigits], by simp, Or.inl rfl,
    (areDigits_replicate e).append hdigits.areDigits, Or.inl ?_, ?_, ?_, by simp⟩
  · simp [hdigits.ne_nil]
  · -- zeros in front spell nothing
    have hspelled : spelled (List.replicate (e + 1) '0' ++ d.significantDigits) =
        spelled d.significantDigits := by
      rw [spelled_append, spelled_replicate, Nat.mul_zero, Nat.zero_add]
    exact hspelled.trans_le (hd.spelled_le.trans (by decide))
  · simp only [List.length_append, List.length_replicate, Json.exponentRoom]
    omega

theorem wellFormed_of_mixed (hd : d.IsModest) {e : ℕ} (he : d.leading = .ofNat e)
    (hmixed : e + 1 < d.significantDigits.length) : d.positionalLiteral.WellFormed := by
  obtain ⟨zeros, hdigits⟩ := significantDigits_spec hd.digits_pos
  have hlength := hd.length_le
  rw [positionalLiteral_of_mixed he hmixed]
  refine ⟨hdigits.areDigits.of_subset (List.take_subset _ _), by simp [hdigits.ne_nil],
    Or.inr ?_, hdigits.areDigits.of_subset (List.drop_subset _ _), Or.inl ?_, ?_, ?_, by simp⟩
  · rw [head?_take_succ]
    exact hdigits.head?_ne
  · simpa using hmixed
  · rw [Literal.significand, List.take_append_drop]
    exact hd.spelled_le.trans (by decide)
  · simp only [List.length_drop, Json.exponentRoom]
    omega

theorem wellFormed_of_whole (hd : d.IsModest) {e : ℕ} (he : d.leading = .ofNat e) (hsmall : e < 16)
    (hwhole : d.significantDigits.length ≤ e + 1) : d.positionalLiteral.WellFormed := by
  obtain ⟨zeros, hdigits⟩ := significantDigits_spec hd.digits_pos
  have hdigitsWhole : AreDigits (d.significantDigits ++
      List.replicate (e + 1 - d.significantDigits.length) '0') :=
    hdigits.areDigits.append (areDigits_replicate _)
  have hpoint : AreDigits ['0'] := areDigits_replicate 1
  rw [positionalLiteral_of_whole he hwhole]
  refine ⟨hdigitsWhole, by simp [hdigits.ne_nil], Or.inr ?_, hpoint, Or.inl (by simp), ?_,
    by simp [Json.exponentRoom], by simp⟩
  · rw [List.head?_append_of_ne_nil _ hdigits.ne_nil]
    exact hdigits.head?_ne
  · -- zeros behind do count, but with the one behind the point there are seventeen digits at most
    refine (spelled_lt (hdigitsWhole.append hpoint)).le.trans ?_
    simp only [List.length_append, List.length_replicate, List.length_singleton]
    exact (Nat.pow_le_pow_right (by decide) (by omega : _ ≤ 17)).trans (by decide)

theorem wellFormed_positionalLiteral (hd : d.IsModest) (hleading : d.leading < 16) :
    d.positionalLiteral.WellFormed := by
  cases he : d.leading with
  | negSucc e => exact wellFormed_of_small hd he
  | ofNat e =>
      rw [he] at hleading
      rcases Nat.lt_or_ge (e + 1) d.significantDigits.length with hmixed | hwhole
      · exact wellFormed_of_mixed hd he hmixed
      · exact wellFormed_of_whole hd he (Int.ofNat_lt.mp hleading) hwhole

/-- A decimal that stands for a natural number is written out as that number. -/
theorem positionalLiteral_of_mul_pow {n e : ℕ} (hexponent : d.exponent = e)
    (hvalue : d.digits * 10 ^ e = n) (hn : 0 < n) :
    d.leading = digitCount n - 1 ∧ d.positionalLiteral = ⟨digitChars n, ['0'], none⟩ := by
  have hdigits : 0 < d.digits := Nat.pos_of_mul_pos_right (hvalue.symm ▸ hn)
  have hchars := digitChars_mul_pow hdigits e
  rw [hvalue] at hchars
  obtain ⟨zeros, hzeros⟩ := exists_digitChars_eq d
  rw [hzeros, List.append_assoc, List.replicate_append_replicate] at hchars
  have hlength := congrArg List.length hchars
  have hlength' := congrArg List.length hzeros
  rw [length_digitChars hn, List.length_append, List.length_replicate] at hlength
  rw [length_digitChars hdigits, List.length_append, List.length_replicate] at hlength'
  have hcount := digitCount_pos hn
  have hleading : d.leading = .ofNat (digitCount n - 1) := by
    rw [leading, hexponent, Int.ofNat_eq_natCast]
    omega
  refine ⟨by rw [hleading, Int.ofNat_eq_natCast]; omega, ?_⟩
  have hroom : digitCount n - 1 + 1 - d.significantDigits.length = zeros + e := by omega
  rw [positionalLiteral_of_whole hleading (by omega), hroom, ← hchars]

theorem exponent_positionalLiteral (d : Decimal) : d.positionalLiteral.exponent = none := by
  unfold positionalLiteral
  split <;> rfl

/-- With an exponent, a literal stands for the decimal that it was made from. -/
theorem scientificLiteral_value (hd : 0 < d.digits) :
    (d.scientificLiteral.significand : ℚ) * 10 ^ d.scientificLiteral.scale = d.value := by
  obtain ⟨zeros, hdigits⟩ := significantDigits_spec hd
  have hlength := List.length_pos_of_ne_nil hdigits.ne_nil
  have hscale : d.scientificLiteral.scale = zeros + d.exponent := by
    simp only [Literal.scale, scientificLiteral, List.length_drop, Option.getD_some, leading,
      hdigits.digitCount_eq]
    omega
  have hvalue : (d.digits : ℚ) = spelled d.significantDigits * 10 ^ zeros := by
    exact_mod_cast hdigits.digits_eq
  rw [significand_scientificLiteral, hscale, value, hvalue, zpow_add₀ (by norm_num),
    zpow_natCast]
  ring

end Decimal

namespace Binary64

open Json (Literal)

variable {rank : ℕ}

theorem isModest_shortest (hrank : 0 < rank) (hfinite : rank < infinityRank) :
    (shortest rank).IsModest := by
  obtain ⟨k, hk, hle, hfits, -⟩ := fits_shortest hrank
  obtain ⟨hlow, hhigh⟩ := leadingExponent_range hrank hfinite
  have hdigits : (shortest rank).digits ≤ 10 ^ 17 :=
    hfits.digits_le.trans (Nat.pow_le_pow_right (by decide) hle)
  have hcount := Decimal.digitCount_pos hfits.digits_pos
  have hcount' : Decimal.digitCount (shortest rank).digits ≤ 18 :=
    (Decimal.digitCount_le_iff hfits.digits_pos (by decide)).mpr (hdigits.trans_lt (by decide))
  refine ⟨hfits.digits_pos, hdigits, ?_⟩
  rw [Decimal.leading, hfits.exponent]
  omega

/-- The text of a magnitude as a literal. -/
def magnitudeLiteral (rank : ℕ) : Literal :=
  if rank = 0 then ⟨['0'], ['0'], none⟩
  else if -5 ≤ (shortest rank).leading ∧ (shortest rank).leading < 16 then
    (shortest rank).positionalLiteral
  else (shortest rank).scientificLiteral

theorem text_magnitudeLiteral (hfinite : rank < infinityRank) :
    (magnitudeLiteral rank).text = Json.magnitudeText rank := by
  unfold magnitudeLiteral Json.magnitudeText
  by_cases hzero : rank = 0
  · rw [if_pos hzero, if_pos hzero]
    rfl
  · have hdigits := (isModest_shortest (Nat.pos_of_ne_zero hzero) hfinite).digits_pos
    rw [if_neg hzero, if_neg hzero]
    by_cases hplain : -5 ≤ (shortest rank).leading ∧ (shortest rank).leading < 16
    · rw [if_pos hplain]
      simp only [if_pos hplain]
      exact Decimal.text_positionalLiteral hdigits
    · rw [if_neg hplain]
      simp only [if_neg hplain]
      exact Decimal.text_scientificLiteral hdigits

theorem wellFormed_magnitudeLiteral (hfinite : rank < infinityRank) :
    (magnitudeLiteral rank).WellFormed := by
  unfold magnitudeLiteral
  split
  next =>
    have hdigit : Decimal.AreDigits ['0'] := Decimal.areDigits_replicate 1
    exact ⟨hdigit, by simp, Or.inl rfl, hdigit, Or.inl (by simp), by decide, by decide, by simp⟩
  next hzero =>
    have hmodest := isModest_shortest (Nat.pos_of_ne_zero hzero) hfinite
    split
    next hplain => exact Decimal.wellFormed_positionalLiteral hmodest hplain.2
    next => exact Decimal.wellFormed_scientificLiteral hmodest

/-- A whole number is written with its digits in front of the point and a zero behind it. -/
theorem magnitudeLiteral_rankOfNat {n : ℕ} (hn : n < 2 * binade) :
    magnitudeLiteral (rankOfNat n) = ⟨Decimal.digitChars n, ['0'], none⟩ := by
  rcases Nat.eq_zero_or_pos n with rfl | hpos
  · rw [rankOfNat_zero]
    rfl
  · obtain ⟨e, hexponent, hdigits⟩ := shortest_rankOfNat hpos hn
    obtain ⟨hleading, hliteral⟩ := Decimal.positionalLiteral_of_mul_pow hexponent hdigits hpos
    have hcount : Decimal.digitCount n ≤ 16 :=
      (Decimal.digitCount_le_iff hpos (by decide)).mpr (hn.trans (by decide))
    have hplain : -5 ≤ (shortest (rankOfNat n)).leading ∧
        (shortest (rankOfNat n)).leading < 16 := by omega
    rw [magnitudeLiteral, if_neg (rankOfNat_pos hpos hn.le).ne', if_pos hplain, hliteral]

/-- The two greatest magnitudes, which the bound on the others leaves out. -/
theorem exists_scaled_top (hrank : rank = infinityRank - 2 ∨ rank = infinityRank - 1) :
    scaledRank? (magnitudeLiteral rank).significand (magnitudeLiteral rank).scale =
      some (infinityRank - 1) := by
  rcases hrank with rfl | rfl
  · decide +kernel
  · decide +kernel

/-- Only a scientific literal has a scale that is not negative. -/
theorem magnitudeLiteral_of_scale (hfinite : rank < infinityRank)
    (hscale : 0 ≤ (magnitudeLiteral rank).scale) :
    0 < rank ∧ magnitudeLiteral rank = (shortest rank).scientificLiteral := by
  have hexponent : (magnitudeLiteral rank).exponent ≠ none := by
    intro hnone
    exact absurd ((wellFormed_magnitudeLiteral hfinite).scale_neg hnone) (Int.not_lt.mpr hscale)
  unfold magnitudeLiteral at hexponent ⊢
  by_cases hzero : rank = 0
  · rw [if_pos hzero] at hexponent
    exact absurd rfl hexponent
  · rw [if_neg hzero] at hexponent ⊢
    by_cases hplain : -5 ≤ (shortest rank).leading ∧ (shortest rank).leading < 16
    · rw [if_pos hplain] at hexponent
      exact absurd (Decimal.exponent_positionalLiteral _) hexponent
    · rw [if_neg hplain]
      exact ⟨Nat.pos_of_ne_zero hzero, rfl⟩

/-- **The text of every finite magnitude is read as a magnitude again.** -/
theorem exists_scaledRank?_magnitudeLiteral (hfinite : rank < infinityRank) :
    ∃ again, scaledRank? (magnitudeLiteral rank).significand (magnitudeLiteral rank).scale =
      some again ∧ again ≤ infinityRank := by
  rcases lt_or_ge (magnitudeLiteral rank).scale 0 with hneg | hscale
  · exact exists_scaledRank?_of_neg hneg _
  · obtain ⟨hrank, hliteral⟩ := magnitudeLiteral_of_scale hfinite hscale
    by_cases htop : rank ≤ infinityRank - 3
    · have hmodest := isModest_shortest hrank hfinite
      obtain ⟨zeros, hdigits⟩ := Decimal.significantDigits_spec hmodest.digits_pos
      have hpos : 0 < (shortest rank).scientificLiteral.significand := by
        rw [Decimal.significand_scientificLiteral]
        exact hdigits.spelled_pos
      rw [hliteral]
      apply exists_scaledRank? hpos
      intro _
      rw [Decimal.scientificLiteral_value hmodest.digits_pos]
      exact two_mul_value_shortest_le hrank htop
    · refine ⟨_, exists_scaled_top ?_, Nat.sub_le _ _⟩
      unfold infinityRank at hfinite htop ⊢
      omega

end Binary64

namespace Json

open Text.Utf8 (encode)

variable {value : Binary64} {rest : Input}

theorem scaled_of_eq_some {m rank : ℕ} {exponent : ℤ}
    (hscaled : Binary64.scaledRank? m exponent = some rank) (hrank : rank ≤ infinityRank)
    (negative : Bool) (s : Input) :
    scaled negative m exponent s = .ok (.number negative ⟨rank, Nat.lt_succ_of_le hrank⟩, s) := by
  unfold scaled
  simp only [hscaled]
  rw [dif_pos (Nat.lt_succ_of_le hrank)]

/-- What the text of a number is read as; `nan` and the infinities have no text that is read as a
number. -/
def reread (value : Binary64) : Option Binary64 :=
  (readBinary64 (encode (floatText value))).toOption.map Prod.fst

theorem stops_nil : Stops [] := fun _ hbyte => absurd hbyte (by simp)

theorem floatText_number {rank : Fin (infinityRank + 1)} (negative : Bool)
    (hrank : rank.val < infinityRank) :
    floatText (.number negative rank) =
      signText negative ++ (Binary64.magnitudeLiteral rank.val).text := by
  rw [floatText, if_pos hrank, Binary64.text_magnitudeLiteral hrank]
  rfl

/-- The text of a finite number is read as what the rule of two roundings makes of its literal. -/
theorem readNumber_of_scaledRank? (expected : String) {rank : Fin (infinityRank + 1)}
    (negative : Bool) (hrank : rank.val < infinityRank) {again : ℕ} (hagain : again ≤ infinityRank)
    (hscaled : Binary64.scaledRank? (Binary64.magnitudeLiteral rank.val).significand
      (Binary64.magnitudeLiteral rank.val).scale = some again) (hrest : Stops rest) :
    readNumber expected (encode (floatText (.number negative rank)) ++ rest) =
      .ok (.float (.number negative ⟨again, Nat.lt_succ_of_le hagain⟩), rest) := by
  rw [floatText_number negative hrank]
  exact readNumber_literal expected (Binary64.wellFormed_magnitudeLiteral hrank) hrest
    (scaled_of_eq_some hscaled hagain negative rest)

theorem reread_eq_some {again : Binary64}
    (hread : ∀ rest, Stops rest →
      readNumber "f64" (encode (floatText value) ++ rest) = .ok (.float again, rest)) :
    reread value = some again := by
  have halone := readBinary64_of_readNumber (hread [] stops_nil)
  rw [List.append_nil] at halone
  rw [reread, halone]
  rfl

/-- The text of a finite number is one literal, the number that it is reread as. -/
theorem readNumber_floatText (hfinite : value.isFinite = true) :
    ∃ again, reread value = some again ∧ ∀ rest, Stops rest →
      BeginsNumber (encode (floatText value) ++ rest) ∧ ∀ expected,
        readNumber expected (encode (floatText value) ++ rest) = .ok (.float again, rest) := by
  cases value with
  | nan => exact absurd hfinite (by decide)
  | number negative rank =>
      have hrank : rank.val < infinityRank := by simpa [Binary64.isFinite] using hfinite
      obtain ⟨again, hscaled, hagain⟩ := Binary64.exists_scaledRank?_magnitudeLiteral hrank
      have hread := fun expected rest hrest =>
        @readNumber_of_scaledRank? rest expected rank negative hrank again hagain hscaled hrest
      refine ⟨_, reread_eq_some (hread "f64"), fun rest hrest =>
        ⟨?_, fun expected => hread expected rest hrest⟩⟩
      rw [floatText_number negative hrank]
      exact beginsNumber_literal (Binary64.wellFormed_magnitudeLiteral hrank) negative rest

/-- **The text of every finite number is read as a number**, whatever stands behind it. -/
theorem readBinary64_floatText (hfinite : value.isFinite = true) :
    ∃ again, reread value = some again ∧ ∀ rest, Stops rest →
      readBinary64 (encode (floatText value) ++ rest) = .ok (again, rest) ∧
        BeginsNumber (encode (floatText value) ++ rest) := by
  obtain ⟨again, hreread, hread⟩ := readNumber_floatText hfinite
  refine ⟨again, hreread, fun rest hrest => ?_⟩
  obtain ⟨hbegins, hnumber⟩ := hread rest hrest
  exact ⟨readBinary64_of_readNumber (hnumber "f64"), hbegins⟩

/-- **A whole number up to `2 ^ 54 / 10` is read as itself**: its text has one digit behind the
point, so the reader starts from ten times the number. -/
theorem reread_ofNat (negative : Bool) {n : ℕ} (hn : 10 * n ≤ 4 * Binary64.binade) :
    reread (.ofNat negative n) = some (.ofNat negative n) := by
  have hbinade : 0 < Binary64.binade := by decide
  have hsmall : n < 2 * Binary64.binade := by omega
  have hrank := Binary64.rankOfNat_lt_infinityRank hsmall.le
  have hliteral := Binary64.magnitudeLiteral_rankOfNat hsmall
  have hsignificand : (Binary64.magnitudeLiteral (Binary64.rankOfNat n)).significand = 10 * n := by
    rw [hliteral, Literal.significand, Decimal.spelled_append, Decimal.spelled_digitChars]
    rfl
  have hscaled : Binary64.scaledRank?
      (Binary64.magnitudeLiteral (Binary64.rankOfNat n)).significand
      (Binary64.magnitudeLiteral (Binary64.rankOfNat n)).scale = some (Binary64.rankOfNat n) := by
    rw [hsignificand, hliteral]
    exact Binary64.scaledRank?_ten_mul hn
  rw [Binary64.ofNat_eq]
  exact reread_eq_some fun rest hrest =>
    readNumber_of_scaledRank? "f64" negative hrank hrank.le hscaled hrest

theorem floatText_of_not_isFinite (hfinite : value.isFinite = false) :
    floatText value = "null".toList := by
  cases value with
  | nan => rfl
  | number negative rank =>
      have hrank : ¬ rank.val < infinityRank := by simpa [Binary64.isFinite] using hfinite
      rw [floatText, if_neg hrank]

theorem reread_of_not_isFinite (hfinite : value.isFinite = false) : reread value = none := by
  rw [reread, floatText_of_not_isFinite hfinite]
  rfl

/-! ### Optional members -/

/-- Blanks in front of an optional value are passed over. -/
theorem readOptional_append {α : Type} {read : Input → Except Failure (α × Input)} {gap : Input}
    (hgap : IsBlank gap) (s : Input) : readOptional read (gap ++ s) = readOptional read s := by
  unfold readOptional
  rw [skipGap_append hgap]

theorem readOptional_of_beginsNumber {α : Type} {read : Input → Except Failure (α × Input)}
    {s : Input} (hs : BeginsNumber s) {result : α} (hread : read s = .ok (result, rest)) :
    readOptional read s = .ok (some result, rest) := by
  have hskip := hs.skipGap
  obtain ⟨byte, tail, rfl, hbyte⟩ := hs
  have hne : byte ≠ 0x6E := by
    rcases hbyte with rfl | hdigit
    · decide
    · exact (isGap_of_isDigit hdigit).2.2
  unfold readOptional
  rw [hskip]
  split
  next heq =>
    injection heq with hhead
    exact absurd hhead hne
  next => simp [hread, bind, Except.bind]

/-- The text of any number is read as what it is reread as, and `null` as nothing. -/
theorem readOptional_floatText (value : Binary64) (hrest : Stops rest) :
    readOptional readBinary64 (encode (floatText value) ++ rest) = .ok (reread value, rest) := by
  cases hfinite : value.isFinite with
  | true =>
      obtain ⟨again, hreread, hread⟩ := readBinary64_floatText hfinite
      rw [hreread]
      exact readOptional_of_beginsNumber (hread rest hrest).2 (hread rest hrest).1
  | false =>
      rw [floatText_of_not_isFinite hfinite, reread_of_not_isFinite hfinite]
      rfl

theorem readOptional_digitChars (n : UInt64) (hrest : Stops rest) :
    readOptional readUInt64 (encode (Decimal.digitChars n.toNat) ++ rest) =
      .ok (some n, rest) :=
  readOptional_of_beginsNumber (beginsNumber_digitChars n rest) (readUInt64_digitChars n hrest)

end Json

end ServiceWatch
