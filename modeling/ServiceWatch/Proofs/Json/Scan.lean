import Mathlib.Data.List.Basic
import Mathlib.Tactic.SplitIfs
import ServiceWatch.Json.Scan
import ServiceWatch.Proofs.Text.Utf8

/-!
# Reading blanks and strings

Every reader passes over the blanks in front of what it reads.  Between the quotation marks of a
string stand bytes that count as they are and escapes; `Spells` tells which bytes they give.  The
text of every string spells it (`spells_spelling`), so it is read as it was (`readString_spelling`).
-/

namespace ServiceWatch.Json

open Text.Utf8 (encode)

variable {byte : UInt8} {gap s rest : Input}

/-! ### Blanks -/

/-- The bytes are blanks. -/
def IsBlank (gap : Input) : Prop := ∀ byte ∈ gap, isGap byte = true

theorem isBlank_nil : IsBlank [] := fun _ hbyte => absurd hbyte List.not_mem_nil

theorem IsBlank.append {other : Input} (hgap : IsBlank gap) (hother : IsBlank other) :
    IsBlank (gap ++ other) :=
  List.forall_mem_append.mpr ⟨hgap, hother⟩

theorem skipGap_append (hgap : IsBlank gap) (s : Input) : skipGap (gap ++ s) = skipGap s := by
  unfold skipGap
  induction gap with
  | nil => rfl
  | cons byte gap ih =>
      rw [List.cons_append, List.dropWhile_cons, if_pos (hgap byte List.mem_cons_self)]
      exact ih fun other hother => hgap other (List.mem_cons_of_mem byte hother)

theorem skipGap_of_not_isGap (hbyte : isGap byte = false) (s : Input) :
    skipGap (byte :: s) = byte :: s := by
  rw [skipGap, List.dropWhile_cons, hbyte]
  rfl

/-! ### Strings -/

/-- The text between the quotation marks of a string spells these bytes. -/
inductive Spells : Input → List UInt8 → Prop where
  | nil : Spells [] []
  | byte {byte : UInt8} {text : Input} {bytes : List UInt8} (hquote : byte ≠ 0x22)
      (hslash : byte ≠ 0x5C) (hcontrol : ¬ byte < 0x20) (htext : Spells text bytes) :
      Spells (byte :: text) (byte :: bytes)
  | letter {letter byte : UInt8} {text : Input} {bytes : List UInt8}
      (hletter : letterEscape? letter = some byte) (htext : Spells text bytes) :
      Spells (0x5C :: letter :: text) (byte :: bytes)
  | code {a b c d : UInt8} {unit : ℕ} {text : Input} {bytes : List UInt8}
      (hunit : hexValue? a b c d = some unit) (hsurrogate : unit < 0xD800 ∨ 0xDFFF < unit)
      (htext : Spells text bytes) :
      Spells (0x5C :: 0x75 :: a :: b :: c :: d :: text)
        (String.utf8EncodeChar (Char.ofNat unit) ++ bytes)
  | pair {a b c d a' b' c' d' : UInt8} {leading trailing : ℕ} {text : Input} {bytes : List UInt8}
      (hleading : hexValue? a b c d = some leading) (hlead : 0xD800 ≤ leading ∧ leading ≤ 0xDBFF)
      (htrailing : hexValue? a' b' c' d' = some trailing)
      (htrail : 0xDC00 ≤ trailing ∧ trailing ≤ 0xDFFF) (htext : Spells text bytes) :
      Spells
        (0x5C :: 0x75 :: a :: b :: c :: d :: 0x5C :: 0x75 :: a' :: b' :: c' :: d' :: text)
        (String.utf8EncodeChar
          (Char.ofNat ((leading - 0xD800) * 0x400 + (trailing - 0xDC00) + 0x10000)) ++ bytes)

variable {text : Input} {bytes : List UInt8}

theorem readEscape_letter {letter : UInt8} (hletter : letterEscape? letter = some byte)
    (s : Input) : readEscape (letter :: s) = .ok ([byte], s) := by
  have hcode : letter ≠ 0x75 := by
    rintro rfl
    have hnone : letterEscape? 0x75 = none := by decide
    rw [hnone] at hletter
    exact absurd hletter (by simp)
  rw [readEscape, if_neg hcode, hletter]

theorem readEscape_code {a b c d : UInt8} {unit : ℕ} (hunit : hexValue? a b c d = some unit)
    (hsurrogate : unit < 0xD800 ∨ 0xDFFF < unit) (s : Input) :
    readEscape (0x75 :: a :: b :: c :: d :: s) =
      .ok (String.utf8EncodeChar (Char.ofNat unit), s) := by
  have hhex : readHex (a :: b :: c :: d :: s) = .ok (unit, s) := by rw [readHex, hunit]
  have htrailing : ¬ (0xDC00 ≤ unit ∧ unit ≤ 0xDFFF) := by omega
  have hleading : ¬ (0xD800 ≤ unit ∧ unit ≤ 0xDBFF) := by omega
  have hcode : readCodePoint (a :: b :: c :: d :: s) = .ok (unit, s) := by
    simp only [readCodePoint, hhex, bind, Except.bind, if_neg htrailing, if_neg hleading]
  rw [readEscape, if_pos rfl]
  simp only [hcode, bind, Except.bind]

/-- A surrogate pair is one character. -/
theorem readEscape_pair {a b c d a' b' c' d' : UInt8} {leading trailing : ℕ}
    (hleading : hexValue? a b c d = some leading) (hlead : 0xD800 ≤ leading ∧ leading ≤ 0xDBFF)
    (htrailing : hexValue? a' b' c' d' = some trailing)
    (htrail : 0xDC00 ≤ trailing ∧ trailing ≤ 0xDFFF) (s : Input) :
    readEscape (0x75 :: a :: b :: c :: d :: 0x5C :: 0x75 :: a' :: b' :: c' :: d' :: s) =
      .ok (String.utf8EncodeChar
        (Char.ofNat ((leading - 0xD800) * 0x400 + (trailing - 0xDC00) + 0x10000)), s) := by
  have hfirst : ∀ s, readHex (a :: b :: c :: d :: s) = .ok (leading, s) := fun s => by
    rw [readHex, hleading]
  have hsecond : readHex (a' :: b' :: c' :: d' :: s) = .ok (trailing, s) := by
    rw [readHex, htrailing]
  have hpair : readTrailing leading (0x5C :: 0x75 :: a' :: b' :: c' :: d' :: s) =
      .ok ((leading - 0xD800) * 0x400 + (trailing - 0xDC00) + 0x10000, s) := by
    simp only [readTrailing, hsecond, bind, Except.bind, if_pos htrail]
  have hnot : ¬ (0xDC00 ≤ leading ∧ leading ≤ 0xDFFF) := by omega
  have hcode : readCodePoint (a :: b :: c :: d :: 0x5C :: 0x75 :: a' :: b' :: c' :: d' :: s) =
      .ok ((leading - 0xD800) * 0x400 + (trailing - 0xDC00) + 0x10000, s) := by
    simp only [readCodePoint, hfirst, bind, Except.bind, if_neg hnot, if_pos hlead, hpair]
  rw [readEscape, if_pos rfl]
  simp only [hcode, bind, Except.bind]

/-- A text is read as the bytes that it spells, up to the closing quotation mark. -/
theorem readBytes_spells (htext : Spells text bytes) (before : List UInt8) {fuel : ℕ}
    (hfuel : text.length < fuel) (rest : Input) :
    readBytes before fuel (text ++ 0x22 :: rest) = .ok (before.reverse ++ bytes, rest) := by
  induction htext generalizing before fuel with
  | nil =>
      obtain ⟨fuel, rfl⟩ := Nat.exists_eq_succ_of_ne_zero (Nat.pos_iff_ne_zero.mp hfuel)
      simp [readBytes]
  | byte hquote hslash hcontrol htext ih =>
      obtain ⟨fuel, rfl⟩ := Nat.exists_eq_succ_of_ne_zero (by omega : fuel ≠ 0)
      rw [List.cons_append, readBytes, if_neg hquote, if_neg hslash, if_neg hcontrol,
        ih _ (by simpa using hfuel)]
      simp
  | letter hletter htext ih =>
      obtain ⟨fuel, rfl⟩ := Nat.exists_eq_succ_of_ne_zero (by omega : fuel ≠ 0)
      simp only [List.length_cons] at hfuel
      rw [List.cons_append, List.cons_append, readBytes, if_neg (by decide), if_pos rfl,
        readEscape_letter hletter]
      simp only
      rw [ih _ (by omega)]
      simp
  | code hunit hsurrogate htext ih =>
      obtain ⟨fuel, rfl⟩ := Nat.exists_eq_succ_of_ne_zero (by omega : fuel ≠ 0)
      simp only [List.length_cons] at hfuel
      simp only [List.cons_append]
      rw [readBytes, if_neg (by decide), if_pos rfl, readEscape_code hunit hsurrogate]
      simp only
      rw [ih _ (by omega)]
      simp
  | pair hleading hlead htrailing htrail htext ih =>
      obtain ⟨fuel, rfl⟩ := Nat.exists_eq_succ_of_ne_zero (by omega : fuel ≠ 0)
      simp only [List.length_cons] at hfuel
      simp only [List.cons_append]
      rw [readBytes, if_neg (by decide), if_pos rfl,
        readEscape_pair hleading hlead htrailing htrail]
      simp only
      rw [ih _ (by omega)]
      simp

theorem readString_spells {name : String} (htext : Spells text (encode name.toList))
    (rest : Input) : readString (text ++ 0x22 :: rest) = .ok (name, rest) := by
  have hfuel : text.length < (text ++ 0x22 :: rest).length + 1 := by
    rw [List.length_append]
    omega
  unfold readString
  rw [readBytes_spells htext [] hfuel]
  simp only [List.reverse_nil, List.nil_append, bind, Except.bind, Text.Utf8.decode?_encode]
  rw [String.ofList_toList]

/-! ### Escapes -/

/-- The bytes between the quotation marks of a string. -/
def spelling (name : String) : Input :=
  encode (name.toList.flatMap escapeChar)

theorem encode_stringText (name : String) :
    encode (stringText name) = 0x22 :: (spelling name ++ [0x22]) := by
  rw [stringText, Text.Utf8.encode_cons_of_ascii (by decide), Text.Utf8.encode_append]
  rfl

/-- The byte of a hexadecimal digit. -/
def hexByte (digit : ℕ) : UInt8 := UInt8.ofNat (Nat.digitChar digit).toNat

theorem encode_controlCode : ∀ n < 0x20, encode ('\\' :: 'u' :: controlCode n) =
    [0x5C, 0x75, 0x30, 0x30, hexByte (n / 16), hexByte (n % 16)] := by
  decide

theorem hexValue?_controlCode : ∀ n < 0x20,
    hexValue? 0x30 0x30 (hexByte (n / 16)) (hexByte (n % 16)) = some n := by
  decide

/-- Bytes that are neither of the two that have an escape, nor control characters, count as they
are. -/
theorem Spells.append_bytes {plain : List UInt8}
    (hplain : ∀ byte ∈ plain, byte ≠ 0x22 ∧ byte ≠ 0x5C ∧ ¬ byte < 0x20)
    (htext : Spells text bytes) : Spells (plain ++ text) (plain ++ bytes) := by
  induction plain with
  | nil => exact htext
  | cons byte plain ih =>
      obtain ⟨hquote, hslash, hcontrol⟩ := hplain byte List.mem_cons_self
      exact .byte hquote hslash hcontrol (ih fun other hother =>
        hplain other (List.mem_cons_of_mem byte hother))

/-- A character that is neither a control character nor one of the two that have an escape stands in
a string as it is. -/
theorem Spells.append_char {c : Char} (hquote : c ≠ '"') (hslash : c ≠ '\\')
    (hcontrol : 0x20 ≤ c.toNat) (htext : Spells text bytes) :
    Spells (String.utf8EncodeChar c ++ text) (String.utf8EncodeChar c ++ bytes) := by
  refine htext.append_bytes ?_
  by_cases hascii : c.toNat < 0x80
  · have hcode := Text.Utf8.toNat_byte_of_ascii hascii
    rw [Text.Utf8.utf8EncodeChar_of_ascii hascii, List.forall_mem_singleton]
    refine ⟨fun heq => hquote ?_, fun heq => hslash ?_, ?_⟩
    · exact Text.Utf8.eq_of_byte_eq (d := '"') hascii (by decide) heq
    · exact Text.Utf8.eq_of_byte_eq (d := '\\') hascii (by decide) heq
    · rw [UInt8.lt_iff_toNat_lt, hcode]
      exact Nat.not_lt.mpr hcontrol
  · intro byte hbyte
    have hhigh := Text.Utf8.le_of_mem_utf8EncodeChar (Nat.not_lt.mp hascii) byte hbyte
    rw [UInt8.le_iff_toNat_le] at hhigh
    refine ⟨?_, ?_, ?_⟩
    · rintro rfl
      exact absurd hhigh (by decide)
    · rintro rfl
      exact absurd hhigh (by decide)
    · rw [UInt8.lt_iff_toNat_lt]
      exact Nat.not_lt.mpr (Nat.le_trans (by decide : 0x20 ≤ 0x80) hhigh)

/-- The text of a character spells it. -/
theorem Spells.append_escapeChar (c : Char) (htext : Spells text bytes) :
    Spells (encode (escapeChar c) ++ text) (String.utf8EncodeChar c ++ bytes) := by
  have hletter : ∀ {n : ℕ} {letter : Char}, n < 0x80 → c.toNat = n → letter.toNat < 0x80 →
      letterEscape? (UInt8.ofNat letter.toNat) = some (UInt8.ofNat n) →
      Spells (encode ['\\', letter] ++ text) (String.utf8EncodeChar c ++ bytes) := by
    intro n letter hn hc hascii hescape
    rw [Text.Utf8.utf8EncodeChar_of_ascii (hc ▸ hn), hc,
      Text.Utf8.encode_cons_of_ascii (by decide), Text.Utf8.encode_cons_of_ascii hascii]
    exact .letter hescape htext
  unfold escapeChar
  split_ifs with hquote hslash hbackspace htab hline hpage hreturn hcontrol
  · exact hletter (by decide : 0x22 < 0x80) (congrArg Char.toNat hquote) (by decide) (by decide)
  · exact hletter (by decide : 0x5C < 0x80) (congrArg Char.toNat hslash) (by decide) (by decide)
  · exact hletter (by decide) hbackspace (by decide) (by decide)
  · exact hletter (by decide) htab (by decide) (by decide)
  · exact hletter (by decide) hline (by decide) (by decide)
  · exact hletter (by decide) hpage (by decide) (by decide)
  · exact hletter (by decide) hreturn (by decide) (by decide)
  · -- a control character is far below the surrogates
    have hspelled := htext.code (hexValue?_controlCode c.toNat hcontrol) (Or.inl (by omega))
    rw [Char.ofNat_toNat] at hspelled
    rw [encode_controlCode c.toNat hcontrol]
    exact hspelled
  · rw [Text.Utf8.encode_cons, Text.Utf8.encode_nil, List.append_nil]
    exact htext.append_char hquote hslash (Nat.not_lt.mp hcontrol)

/-- The text of a string spells the string. -/
theorem spells_spelling (name : String) : Spells (spelling name) (encode name.toList) := by
  unfold spelling
  induction name.toList with
  | nil => exact .nil
  | cons c cs ih =>
      rw [List.flatMap_cons, Text.Utf8.encode_append, Text.Utf8.encode_cons]
      exact ih.append_escapeChar c

/-- **Every string is read as it was written.** -/
theorem readString_spelling (name : String) (rest : Input) :
    readString (spelling name ++ 0x22 :: rest) = .ok (name, rest) :=
  readString_spells (spells_spelling name) rest

end ServiceWatch.Json
