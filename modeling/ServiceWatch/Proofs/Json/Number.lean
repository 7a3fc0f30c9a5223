import ServiceWatch.Json.Typed
import ServiceWatch.Proofs.Binary64.Digits
import ServiceWatch.Proofs.Json.Scan

/-!
# Reading number literals

A `Literal` is a number with a fraction or an exponent.  Its text is read as the number that its
digits and its exponents say, whatever follows, as long as that cannot be taken for more of the
literal (`readNumeral_literal`); so is a sequence of digits alone (`readNumeral_digitChars`).
-/

namespace ServiceWatch.Json

open Decimal (AreDigits digitChars spelled)
open Text.Utf8 (encode)

variable {cs whole fraction : List Char} {rest tail : Input} {limit value count m : ℕ}
  {negative : Bool} {exponent : ℤ} {number : Binary64}

/-- The input goes on with something that ends a literal. -/
def Stops (rest : Input) : Prop :=
  ∀ byte, rest.head? = some byte → isDigit byte = false ∧ byte ≠ 0x2E ∧ byte ≠ 0x65 ∧ byte ≠ 0x45

/-! ### Digits -/

theorem toNat_of_isDigit {c : Char} (hc : c.isDigit = true) : 48 ≤ c.toNat ∧ c.toNat < 58 := by
  simp only [Char.isDigit, Bool.and_eq_true, decide_eq_true_eq] at hc
  have hlow : 48 ≤ c.toNat := hc.1
  have hhigh : c.toNat ≤ 57 := hc.2
  omega

theorem digit?_of_isDigit {c : Char} (hc : c.isDigit = true) :
    digit? (UInt8.ofNat c.toNat) = some (c.toNat - 48) := by
  obtain ⟨hlow, hhigh⟩ := toNat_of_isDigit hc
  have hbyte := Text.Utf8.toNat_byte_of_ascii (hhigh.trans (by decide))
  have hnotLow : ¬ UInt8.ofNat c.toNat < 48 := by
    rw [UInt8.lt_iff_toNat_lt, hbyte]
    exact Nat.not_lt.mpr hlow
  have hnotHigh : UInt8.ofNat c.toNat < 58 := by
    rw [UInt8.lt_iff_toNat_lt, hbyte]
    exact hhigh
  rw [digit?, if_neg hnotLow, if_pos hnotHigh, hbyte]

theorem encode_cons_of_isDigit {c : Char} (hc : c.isDigit = true) (cs : List Char) :
    encode (c :: cs) = UInt8.ofNat c.toNat :: encode cs :=
  Text.Utf8.encode_cons_of_ascii (by have := toNat_of_isDigit hc; omega) cs

/-- Digits are collected up to what is no digit, if their number stays within the limit. -/
theorem collectDigits_encode (count : ℕ) (hcs : AreDigits cs)
    (hlimit : Nat.ofDigitChars 10 cs value ≤ limit)
    (hrest : ∀ byte, rest.head? = some byte → digit? byte = none) :
    collectDigits limit value count (encode cs ++ rest) =
      (⟨Nat.ofDigitChars 10 cs value, count + cs.length, false⟩, rest) := by
  induction cs generalizing value count with
  | nil =>
      cases rest with
      | nil => rfl
      | cons byte rest =>
          have hbyte := hrest byte rfl
          simp [collectDigits, hbyte]
  | cons c cs ih =>
      have hc := hcs c List.mem_cons_self
      rw [Nat.ofDigitChars_cons] at hlimit ⊢
      have hnext : value * 10 + (c.toNat - 48) = 10 * value + (c.toNat - '0'.toNat) := by
        rw [Nat.mul_comm]
        rfl
      -- the digits still to come only make the number greater
      have hfits : ¬ limit < 10 * value + (c.toNat - '0'.toNat) :=
        Nat.not_lt.mpr ((Decimal.le_ofDigitChars cs _).trans hlimit)
      rw [encode_cons_of_isDigit hc, List.cons_append, collectDigits]
      simp only [digit?_of_isDigit hc, hnext, if_neg hfits]
      rw [ih _ (fun d hd => hcs d (List.mem_cons_of_mem c hd)) hlimit, List.length_cons,
        Nat.add_right_comm, Nat.add_assoc]

theorem digit?_of_stops (hrest : Stops rest) :
    ∀ byte, rest.head? = some byte → digit? byte = none := by
  intro byte hbyte
  simpa [isDigit] using (hrest byte hbyte).1

/-! ### Exponents -/

/-- The exponent behind its letter, always with a sign. -/
def exponentText : ℤ → List Char
  | .ofNat e => '+' :: digitChars e
  | .negSucc e => '-' :: digitChars (e + 1)

/-- A bound on the exponents of literals that leaves room for sums of them. -/
def exponentRoom : ℕ := 1000

theorem addExponents_of_le {a b : ℤ} (ha : a.natAbs ≤ exponentRoom) (hb : b.natAbs ≤ exponentRoom) :
    addExponents a b = a + b := by
  unfold addExponents exponentLimit
  unfold exponentRoom at ha hb
  omega

theorem encode_exponentText (e : ℤ) :
    encode (exponentText e) =
      (if e < 0 then 0x2D else 0x2B) :: encode (digitChars e.natAbs) := by
  cases e with
  | ofNat e =>
      have hsign : ¬ Int.ofNat e < 0 := Int.not_lt.mpr (Int.natCast_nonneg e)
      rw [exponentText, Text.Utf8.encode_cons_of_ascii (by decide), if_neg hsign]
      rfl
  | negSucc e =>
      rw [exponentText, Text.Utf8.encode_cons_of_ascii (by decide), if_pos (Int.negSucc_lt_zero e)]
      rfl

theorem readExponent_exponentText {e : ℤ} (he : e.natAbs ≤ exponentRoom)
    (hexponent : exponent.natAbs ≤ exponentRoom) (hrest : Stops rest)
    (hscaled : scaled negative m (exponent + e) rest = .ok (number, rest)) :
    readExponent negative m exponent (encode (exponentText e) ++ rest) =
      .ok (number, rest) := by
  have hcollected : collectDigits exponentLimit 0 0 (encode (digitChars e.natAbs) ++ rest) =
      (⟨e.natAbs, 0 + (digitChars e.natAbs).length, false⟩, rest) := by
    have hvalue : Nat.ofDigitChars 10 (digitChars e.natAbs) 0 = e.natAbs :=
      Decimal.spelled_digitChars _
    have hlimit : e.natAbs ≤ exponentLimit := he.trans (by decide)
    rw [collectDigits_encode 0 (Decimal.areDigits_digitChars _) (hvalue.symm ▸ hlimit)
      (digit?_of_stops hrest), hvalue]
  have hcount : 0 + (digitChars e.natAbs).length ≠ 0 := by
    rw [Nat.zero_add]
    exact (Nat.length_toDigits_pos (b := 10)).ne'
  rw [encode_exponentText, List.cons_append]
  unfold readExponent
  by_cases hnegative : e < 0
  · simp only [hnegative, if_true, hcollected, hcount, if_false]
    have hvalue : -(e.natAbs : ℤ) = e := by omega
    rw [hvalue, addExponents_of_le hexponent he]
    exact hscaled
  · simp only [hnegative, Bool.false_eq_true, if_false, hcollected, hcount]
    have hvalue : (e.natAbs : ℤ) = e := by omega
    rw [hvalue, addExponents_of_le hexponent he]
    exact hscaled

/-! ### Literals -/

/-- A number with a fraction or an exponent: the digits in front of the point and behind it, and the
exponent. -/
structure Literal where
  whole : List Char
  fraction : List Char
  exponent : Option ℤ

namespace Literal

/-- The point and the digits behind it, if there are any. -/
def fractionText (l : Literal) : List Char :=
  if l.fraction = [] then [] else '.' :: l.fraction

/-- The letter and the exponent, if there is one. -/
def scaleText (l : Literal) : List Char :=
  match l.exponent with
  | some e => 'e' :: exponentText e
  | none => []

/-- The text of a literal. -/
def text (l : Literal) : List Char :=
  l.whole ++ (l.fractionText ++ l.scaleText)

/-- All digits of the literal, as one number. -/
def significand (l : Literal) : ℕ := spelled (l.whole ++ l.fraction)

/-- The exponent of ten that the last digit counts. -/
def scale (l : Literal) : ℤ := -(l.fraction.length : ℤ) + l.exponent.getD 0

/-- The literal is one that the reader takes as it is: it has digits on both sides of a point, no
idle zero in front, and neither too many digits nor too great an exponent. -/
structure WellFormed (l : Literal) : Prop where
  whole : AreDigits l.whole
  whole_ne : l.whole ≠ []
  zero : l.whole = ['0'] ∨ l.whole.head? ≠ some '0'
  fraction : AreDigits l.fraction
  inexact : l.fraction ≠ [] ∨ l.exponent.isSome
  significand_le : l.significand ≤ significandLimit
  fraction_le : l.fraction.length ≤ exponentRoom
  exponent_le : ∀ e, l.exponent = some e → e.natAbs ≤ exponentRoom

end Literal

variable {l : Literal}

theorem isDigit_of_isDigit {c : Char} (hc : c.isDigit = true) :
    isDigit (UInt8.ofNat c.toNat) = true := by
  rw [isDigit, digit?_of_isDigit hc, Option.isSome_some]

/-- The exponent of a literal is added to that of its digits. -/
theorem readScale_scaleText (exponent : ℤ) (hl : l.WellFormed)
    (hexponent : exponent.natAbs ≤ exponentRoom)
    (hrest : Stops rest)
    (hscaled : scaled negative m (exponent + l.exponent.getD 0) rest = .ok (number, rest)) :
    readScale negative m exponent (encode l.scaleText ++ rest) = .ok (number, rest) := by
  unfold Literal.scaleText
  cases he : l.exponent with
  | none =>
      rw [he, Option.getD_none, Int.add_zero] at hscaled
      cases rest with
      | nil => exact hscaled
      | cons byte rest =>
          obtain ⟨-, -, hsmall, hgreat⟩ := hrest byte rfl
          simpa [readScale, hsmall, hgreat] using hscaled
  | some e =>
      rw [he, Option.getD_some] at hscaled
      rw [Text.Utf8.encode_cons_of_ascii (by decide), List.cons_append, readScale,
        if_pos (Or.inl (by decide))]
      exact readExponent_exponentText (hl.exponent_le e he) hexponent hrest hscaled

theorem digit?_head_scaleText (hrest : Stops rest) :
    ∀ byte, (encode l.scaleText ++ rest).head? = some byte → digit? byte = none := by
  intro byte hbyte
  unfold Literal.scaleText at hbyte
  cases he : l.exponent with
  | none =>
      rw [he] at hbyte
      exact digit?_of_stops hrest byte hbyte
  | some e =>
      rw [he] at hbyte
      rw [Text.Utf8.encode_cons_of_ascii (by decide), List.cons_append, List.head?_cons,
        Option.some_inj] at hbyte
      rw [← hbyte]
      decide

/-- Without an exponent the scale of a literal is negative. -/
theorem Literal.WellFormed.scale_neg (hl : l.WellFormed) (hexponent : l.exponent = none) :
    l.scale < 0 := by
  have hfraction : l.fraction ≠ [] := by
    rcases hl.inexact with hfraction | hsome
    · exact hfraction
    · rw [hexponent] at hsome
      exact absurd hsome (by simp)
  have hlength := List.length_pos_of_ne_nil hfraction
  rw [Literal.scale, hexponent, Option.getD_none]
  omega

theorem readTail_point (negative : Bool) (m : ℕ) (s : Input) :
    readTail negative m (0x2E :: s) =
      (readFraction negative m 0 s).map fun result => (.float result.1, result.2) := by
  rw [readTail]
  cases readFraction negative m 0 s <;> rfl

theorem readTail_letter (negative : Bool) (m : ℕ) (s : Input) :
    readTail negative m (0x65 :: s) =
      (readScale negative m 0 (0x65 :: s)).map fun result => (.float result.1, result.2) := by
  unfold readTail
  split
  next heq =>
    injection heq with hbyte
    exact absurd hbyte (by decide)
  next =>
    rw [if_pos (Or.inl List.head?_cons)]
    cases readScale negative m 0 (0x65 :: s) <;> rfl

/-- The digits behind the point go on with those in front of it. -/
theorem Literal.ofDigitChars_fraction (l : Literal) :
    Nat.ofDigitChars 10 l.fraction (spelled l.whole) = l.significand :=
  (Nat.ofDigitChars_append 0).symm

/-- Without a fraction there is an exponent, and its letter comes next. -/
theorem readTail_scaleText (hl : l.WellFormed) (hfraction : l.fraction = []) (hrest : Stops rest)
    (hscaled : scaled negative l.significand l.scale rest = .ok (number, rest)) :
    readTail negative (spelled l.whole) (encode l.scaleText ++ rest) =
      .ok (.float number, rest) := by
  have hexponent : l.exponent.isSome := hl.inexact.resolve_left fun hne => hne hfraction
  obtain ⟨e, he⟩ := Option.isSome_iff_exists.mp hexponent
  have hhead : encode l.scaleText ++ rest = 0x65 :: (encode (exponentText e) ++ rest) := by
    rw [Literal.scaleText, he]
    simp only
    rw [Text.Utf8.encode_cons_of_ascii (by decide)]
    rfl
  have hscale := readScale_scaleText 0 hl (Nat.zero_le _) hrest
    (by simpa [Literal.scale, hfraction] using hscaled)
  rw [← l.ofDigitChars_fraction, hfraction, Nat.ofDigitChars_nil, hhead] at hscale
  rw [hhead, readTail_letter, hscale]
  rfl

/-- A fraction is read behind its point, and its length is the exponent to begin with. -/
theorem readFraction_fraction (hl : l.WellFormed) (hfraction : l.fraction ≠ [])
    (hrest : Stops rest)
    (hscaled : scaled negative l.significand l.scale rest = .ok (number, rest)) :
    readFraction negative (spelled l.whole) 0
      (encode l.fraction ++ (encode l.scaleText ++ rest)) = .ok (number, rest) := by
  have hlimit : Nat.ofDigitChars 10 l.fraction (spelled l.whole) ≤ significandLimit := by
    rw [l.ofDigitChars_fraction]
    exact hl.significand_le
  have hcollected := collectDigits_encode 0 hl.fraction hlimit
    (digit?_head_scaleText (l := l) hrest)
  have hcount : 0 + l.fraction.length ≠ 0 := by simpa using hfraction
  unfold readFraction
  simp only [hcollected, l.ofDigitChars_fraction, Bool.false_eq_true, if_false, hcount]
  refine readScale_scaleText _ hl ?_ hrest ?_
  · have hroom := hl.fraction_le
    rw [Nat.zero_add]
    omega
  · rw [Nat.zero_add, Int.zero_sub]
    exact hscaled

/-- Behind the digits in front of the point, the rest of a literal is read. -/
theorem readTail_literal (hl : l.WellFormed) (hrest : Stops rest)
    (hscaled : scaled negative l.significand l.scale rest = .ok (number, rest)) :
    readTail negative (spelled l.whole) (encode (l.fractionText ++ l.scaleText) ++ rest) =
      .ok (.float number, rest) := by
  rw [Text.Utf8.encode_append, List.append_assoc]
  by_cases hfraction : l.fraction = []
  · rw [Literal.fractionText, if_pos hfraction, Text.Utf8.encode_nil, List.nil_append]
    exact readTail_scaleText hl hfraction hrest hscaled
  · rw [Literal.fractionText, if_neg hfraction, Text.Utf8.encode_cons_of_ascii (by decide),
      List.cons_append]
    refine (readTail_point negative (spelled l.whole) _).trans ?_
    rw [readFraction_fraction hl hfraction hrest hscaled]
    rfl

theorem readNumeral_zero (negative : Bool) {s : Input}
    (hs : ∀ byte, s.head? = some byte → digit? byte = none) :
    readNumeral negative (0x30 :: s) = readTail negative 0 s := by
  cases s with
  | nil => rfl
  | cons byte s =>
      have hbyte : isDigit byte = false := by simp [isDigit, hs byte rfl]
      have hbranch : readNumeral negative (0x30 :: byte :: s) =
          if isDigit byte then failAt .invalidNumber s else readTail negative 0 (byte :: s) := rfl
      rw [hbranch, hbyte]
      rfl

theorem readNumeral_of_ne_zero (negative : Bool) {byte : UInt8} (hbyte : isDigit byte = true)
    (hne : byte ≠ 0x30) (s : Input) :
    readNumeral negative (byte :: s) =
      if (collectDigits significandLimit 0 0 (byte :: s)).1.isFull then
        readLongTail negative (collectDigits significandLimit 0 0 (byte :: s)).1.value
          (collectDigits significandLimit 0 0 (byte :: s)).2
      else
        readTail negative (collectDigits significandLimit 0 0 (byte :: s)).1.value
          (collectDigits significandLimit 0 0 (byte :: s)).2 := by
  rw [readNumeral]
  · rw [if_pos hbyte]
  · exact hne

/-- The digits in front of the point are read as one number. -/
theorem readNumeral_whole (negative : Bool) (hwhole : AreDigits whole) (hne : whole ≠ [])
    (hzero : whole = ['0'] ∨ whole.head? ≠ some '0') (hlimit : spelled whole ≤ significandLimit)
    (htail : ∀ byte, tail.head? = some byte → digit? byte = none) :
    readNumeral negative (encode whole ++ tail) = readTail negative (spelled whole) tail := by
  cases whole with
  | nil => exact absurd rfl hne
  | cons c cs =>
      have hc := hwhole c List.mem_cons_self
      rcases hzero with hzero | hzero
      · rw [hzero, Text.Utf8.encode_cons_of_ascii (by decide)]
        exact readNumeral_zero negative htail
      · have hbyte : UInt8.ofNat c.toNat ≠ 0x30 := by
          intro heq
          have hascii := (toNat_of_isDigit hc).2.trans (by decide : 58 < 128)
          have hchar := Text.Utf8.eq_of_byte_eq (d := '0') hascii (by decide) heq
          exact hzero (congrArg some hchar)
        have hcollected := collectDigits_encode 0 hwhole hlimit htail
        rw [encode_cons_of_isDigit hc, List.cons_append] at hcollected ⊢
        rw [readNumeral_of_ne_zero negative (isDigit_of_isDigit hc) hbyte, hcollected]
        rfl

/-- **A literal is read as the number that it says.** -/
theorem readNumeral_literal (hl : l.WellFormed) (hrest : Stops rest)
    (hscaled : scaled negative l.significand l.scale rest = .ok (number, rest)) :
    readNumeral negative (encode l.text ++ rest) = .ok (.float number, rest) := by
  have hsignificand : spelled l.whole ≤ l.significand := by
    rw [← l.ofDigitChars_fraction]
    exact Decimal.le_ofDigitChars _ _
  -- what stands behind the digits is the point, the letter or the rest, and no digit
  have htail : ∀ byte, (encode (l.fractionText ++ l.scaleText) ++ rest).head? = some byte →
      digit? byte = none := by
    intro byte hbyte
    rw [Text.Utf8.encode_append, List.append_assoc] at hbyte
    by_cases hfraction : l.fraction = []
    · rw [Literal.fractionText, if_pos hfraction] at hbyte
      exact digit?_head_scaleText hrest byte hbyte
    · rw [Literal.fractionText, if_neg hfraction, Text.Utf8.encode_cons_of_ascii (by decide),
        List.cons_append, List.head?_cons, Option.some_inj] at hbyte
      rw [← hbyte]
      decide
  rw [Literal.text, Text.Utf8.encode_append, List.append_assoc,
    readNumeral_whole negative hl.whole hl.whole_ne hl.zero (hsignificand.trans hl.significand_le)
      htail]
  exact readTail_literal hl hrest hscaled

/-- A natural number of sixty-four bits is read as it is. -/
theorem readNumeral_digitChars (n : UInt64) (hrest : Stops rest) :
    readNumeral false (encode (digitChars n.toNat) ++ rest) = .ok (.unsigned n, rest) := by
  have hzero : digitChars n.toNat = ['0'] ∨ (digitChars n.toNat).head? ≠ some '0' := by
    rcases Nat.eq_zero_or_pos n.toNat with hzero | hpos
    · exact Or.inl (by rw [hzero]; rfl)
    · exact Or.inr (Decimal.head?_digitChars_ne hpos)
  have hlimit : spelled (digitChars n.toNat) ≤ significandLimit := by
    rw [Decimal.spelled_digitChars]
    exact Nat.le_of_lt_succ n.toNat_lt
  rw [readNumeral_whole false (Decimal.areDigits_digitChars _) Nat.toDigits_ne_nil hzero hlimit
    (digit?_of_stops hrest), Decimal.spelled_digitChars]
  cases rest with
  | nil => simp [readTail, integerNumeral?]
  | cons byte rest =>
      obtain ⟨-, hpoint, hsmall, hgreat⟩ := hrest byte rfl
      rw [readTail]
      · simp [hsmall, hgreat, integerNumeral?]
      · intro _ heq
        injection heq with hbyte
        exact hpoint hbyte

/-! ### Numbers -/

/-- The input begins as a number does. -/
def BeginsNumber (s : Input) : Prop :=
  ∃ byte tail, s = byte :: tail ∧ (byte = 0x2D ∨ isDigit byte = true)

theorem ne_of_isDigit {byte other : UInt8} (hbyte : isDigit byte = true)
    (hother : isDigit other = false) : byte ≠ other := by
  rintro rfl
  exact absurd hbyte (by rw [hother]; exact Bool.false_ne_true)

theorem isGap_of_isDigit {byte : UInt8} (hbyte : isDigit byte = true) :
    isGap byte = false ∧ byte ≠ 0x2D ∧ byte ≠ 0x6E := by
  refine ⟨?_, ne_of_isDigit hbyte (by decide), ne_of_isDigit hbyte (by decide)⟩
  rw [Bool.eq_false_iff]
  intro hgap
  simp only [isGap, Bool.or_eq_true, decide_eq_true_eq] at hgap
  rcases hgap with ((rfl | rfl) | rfl) | rfl <;> exact absurd hbyte (by decide)

theorem BeginsNumber.skipGap {s : Input} (hs : BeginsNumber s) : skipGap s = s := by
  obtain ⟨byte, tail, rfl, rfl | hbyte⟩ := hs
  · exact skipGap_of_not_isGap (by decide) tail
  · exact skipGap_of_not_isGap (isGap_of_isDigit hbyte).1 tail

theorem beginsNumber_encode (hcs : AreDigits cs) (hne : cs ≠ []) (tail : List Char)
    (rest : Input) : BeginsNumber (encode (cs ++ tail) ++ rest) := by
  cases cs with
  | nil => exact absurd rfl hne
  | cons c cs =>
      have hc := hcs c List.mem_cons_self
      rw [List.cons_append, encode_cons_of_isDigit hc, List.cons_append]
      exact ⟨_, _, rfl, Or.inr (isDigit_of_isDigit hc)⟩

theorem beginsNumber_digitChars (n : UInt64) (rest : Input) :
    BeginsNumber (encode (digitChars n.toNat) ++ rest) := by
  have hbegins := beginsNumber_encode (Decimal.areDigits_digitChars n.toNat) Nat.toDigits_ne_nil []
    rest
  rwa [List.append_nil] at hbegins

/-- A number without a sign is read as its literal. -/
theorem readNumber_of_digits (expected : String) (hcs : AreDigits cs) (hne : cs ≠ [])
    (more : List Char) (rest : Input) :
    readNumber expected (encode (cs ++ more) ++ rest) =
      readNumeral false (encode (cs ++ more) ++ rest) := by
  cases cs with
  | nil => exact absurd rfl hne
  | cons c cs =>
      have hbyte := isDigit_of_isDigit (hcs c List.mem_cons_self)
      obtain ⟨hgap, hminus, -⟩ := isGap_of_isDigit hbyte
      rw [List.cons_append, encode_cons_of_isDigit (hcs c List.mem_cons_self), List.cons_append,
        readNumber, skipGap_of_not_isGap hgap]
      simp only [if_neg hminus, if_pos hbyte]

theorem readNumber_digitChars (expected : String) (n : UInt64) (hrest : Stops rest) :
    readNumber expected (encode (digitChars n.toNat) ++ rest) = .ok (.unsigned n, rest) := by
  have hnumber := readNumber_of_digits expected (Decimal.areDigits_digitChars n.toNat)
    Nat.toDigits_ne_nil [] rest
  rwa [List.append_nil, readNumeral_digitChars n hrest] at hnumber

/-- A time is read as it is written. -/
theorem readUInt64_digitChars (n : UInt64) (hrest : Stops rest) :
    readUInt64 (encode (digitChars n.toNat) ++ rest) = .ok (n, rest) := by
  simp only [readUInt64, readNumber_digitChars "u64" n hrest, bind, Except.bind]
  rfl

/-- The sign of a number. -/
def signText (negative : Bool) : List Char := if negative then ['-'] else []

/-- A literal behind its sign is read as the number that it says. -/
theorem readNumber_literal (expected : String) (hl : l.WellFormed) (hrest : Stops rest)
    (hscaled : scaled negative l.significand l.scale rest = .ok (number, rest)) :
    readNumber expected (encode (signText negative ++ l.text) ++ rest) =
      .ok (.float number, rest) := by
  have hnumeral := readNumeral_literal hl hrest hscaled
  cases negative with
  | false =>
      rw [signText, if_neg Bool.false_ne_true, List.nil_append, Literal.text,
        readNumber_of_digits _ hl.whole hl.whole_ne]
      exact hnumeral
  | true =>
      rw [signText, if_pos rfl, List.singleton_append,
        Text.Utf8.encode_cons_of_ascii (by decide), List.cons_append]
      exact hnumeral

theorem readBinary64_of_readNumber {s : Input}
    (hnumber : readNumber "f64" s = .ok (.float number, rest)) :
    readBinary64 s = .ok (number, rest) := by
  simp only [readBinary64, hnumber, bind, Except.bind]
  rfl

theorem beginsNumber_literal (hl : l.WellFormed) (negative : Bool) (rest : Input) :
    BeginsNumber (encode (signText negative ++ l.text) ++ rest) := by
  cases negative with
  | false => exact beginsNumber_encode hl.whole hl.whole_ne _ rest
  | true =>
      rw [signText, if_pos rfl, List.singleton_append,
        Text.Utf8.encode_cons_of_ascii (by decide), List.cons_append]
      exact ⟨_, _, rfl, Or.inl rfl⟩

end ServiceWatch.Json
