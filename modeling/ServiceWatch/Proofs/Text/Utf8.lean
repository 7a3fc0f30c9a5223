import Mathlib.Data.Nat.Notation
import ServiceWatch.Text.Utf8

/-!
# Texts and their bytes

An ASCII character is one byte, its code; every other character begins with a byte from `0xC2` on
and goes on with tail bytes, so that none of its bytes is one of an ASCII character.  The automaton
is led through the bytes of a character and back to where it stood, and gives that character; so the
bytes of a text spell the text (`decode?_encode`).
-/

namespace ServiceWatch.Text.Utf8

@[simp] theorem encode_nil : encode [] = [] := rfl

theorem encode_cons (c : Char) (cs : List Char) :
    encode (c :: cs) = String.utf8EncodeChar c ++ encode cs :=
  List.flatMap_cons

theorem encode_append (front back : List Char) :
    encode (front ++ back) = encode front ++ encode back :=
  List.flatMap_append

theorem toNat_byte_of_ascii {c : Char} (hc : c.toNat < 128) :
    (UInt8.ofNat c.toNat).toNat = c.toNat :=
  UInt8.toNat_ofNat_of_lt' (Nat.lt_trans hc (by decide))

/-- ASCII characters with the same byte are the same. -/
theorem eq_of_byte_eq {c d : Char} (hc : c.toNat < 128) (hd : d.toNat < 128)
    (heq : UInt8.ofNat c.toNat = UInt8.ofNat d.toNat) : c = d := by
  have hcode := congrArg UInt8.toNat heq
  rw [toNat_byte_of_ascii hc, toNat_byte_of_ascii hd] at hcode
  exact Char.toNat_inj.mp hcode

theorem utf8EncodeChar_of_ascii {c : Char} (hc : c.toNat < 128) :
    String.utf8EncodeChar c = [UInt8.ofNat c.toNat] := by
  unfold String.utf8EncodeChar
  exact if_pos (Nat.le_of_lt_succ hc)

theorem encode_cons_of_ascii {c : Char} (hc : c.toNat < 128) (cs : List Char) :
    encode (c :: cs) = UInt8.ofNat c.toNat :: encode cs := by
  rw [encode_cons, utf8EncodeChar_of_ascii hc, List.singleton_append]

/-! ### The bytes of a character -/

/-- A tail byte with these six bits. -/
def tailByte (bits : ℕ) : UInt8 := UInt8.ofNat (bits % 64 + 0x80)

/-- The byte that a character of several bytes begins with. -/
def leadByte (mark bits : ℕ) : UInt8 := UInt8.ofNat (bits + mark)

theorem utf8EncodeChar_two {c : Char} (hlow : 0x80 ≤ c.toNat) (hhigh : c.toNat < 0x800) :
    String.utf8EncodeChar c = [leadByte 0xC0 (c.toNat / 64), tailByte c.toNat] := by
  have hlead : c.toNat / 64 % 0x20 = c.toNat / 64 := Nat.mod_eq_of_lt (by omega)
  unfold String.utf8EncodeChar
  rw [leadByte, tailByte]
  simp only [Char.toNat] at hlow hhigh hlead ⊢
  rw [if_neg (by omega), if_pos (by omega), hlead]

theorem utf8EncodeChar_three {c : Char} (hlow : 0x800 ≤ c.toNat) (hhigh : c.toNat < 0x10000) :
    String.utf8EncodeChar c =
      [leadByte 0xE0 (c.toNat / 4096), tailByte (c.toNat / 64), tailByte c.toNat] := by
  have hlead : c.toNat / 4096 % 0x10 = c.toNat / 4096 := Nat.mod_eq_of_lt (by omega)
  unfold String.utf8EncodeChar
  rw [leadByte, tailByte, tailByte]
  simp only [Char.toNat] at hlow hhigh hlead ⊢
  rw [if_neg (by omega), if_neg (by omega), if_pos (by omega), hlead]

theorem toNat_lt_of_char (c : Char) : c.toNat < 0x110000 := by
  rcases c.valid with hsmall | ⟨-, hgreat⟩
  · exact Nat.lt_trans hsmall (by decide)
  · exact hgreat

theorem utf8EncodeChar_four {c : Char} (hlow : 0x10000 ≤ c.toNat) :
    String.utf8EncodeChar c =
      [leadByte 0xF0 (c.toNat / 262144), tailByte (c.toNat / 4096), tailByte (c.toNat / 64),
        tailByte c.toNat] := by
  have hbound := toNat_lt_of_char c
  have hlead : c.toNat / 262144 % 0x8 = c.toNat / 262144 := Nat.mod_eq_of_lt (by omega)
  unfold String.utf8EncodeChar
  rw [leadByte, tailByte, tailByte, tailByte]
  simp only [Char.toNat] at hlow hlead ⊢
  rw [if_neg (by omega), if_neg (by omega), if_neg (by omega), hlead]

theorem toNat_tailByte (bits : ℕ) : (tailByte bits).toNat = bits % 64 + 0x80 := by
  have hbits : bits % 64 < 64 := Nat.mod_lt bits (by decide)
  exact UInt8.toNat_ofNat_of_lt' (Nat.lt_trans (Nat.add_lt_add_right hbits 0x80) (by decide))

/-! ### Reading a character back -/

variable {low high lead : UInt8} {bits more : ℕ}

theorem pieces_cons_of_start {position : Position} (hstart : start lead = ([], position))
    (bytes : List UInt8) : pieces (lead :: bytes) = piecesFrom position bytes := by
  rw [pieces, piecesFrom, step, hstart]
  rfl

theorem step_tailByte (hlow : low.toNat ≤ bits % 64 + 0x80)
    (hhigh : bits % 64 + 0x80 ≤ high.toNat) :
    step (.inside more low high (bits / 64)) (tailByte bits) =
      match more with
      | 0 => ([some (Char.ofNat bits)], .between)
      | more + 1 => ([], .inside more 0x80 0xBF bits) := by
  have hrange : low ≤ tailByte bits ∧ tailByte bits ≤ high := by
    rw [UInt8.le_iff_toNat_le, UInt8.le_iff_toNat_le, toNat_tailByte]
    exact ⟨hlow, hhigh⟩
  have hbits : bits / 64 * 64 + ((tailByte bits).toNat - 0x80) = bits := by
    rw [toNat_tailByte]
    omega
  rw [step, if_pos hrange]
  cases more with
  | zero => simp only [hbits]
  | succ more => simp only [hbits]

/-- A tail byte that is not the last adds its bits. -/
theorem piecesFrom_more (hlow : low.toNat ≤ bits % 64 + 0x80)
    (hhigh : bits % 64 + 0x80 ≤ high.toNat) (bytes : List UInt8) :
    piecesFrom (.inside (more + 1) low high (bits / 64)) (tailByte bits :: bytes) =
      piecesFrom (.inside more 0x80 0xBF bits) bytes := by
  rw [piecesFrom, step_tailByte hlow hhigh]
  rfl

/-- The last tail byte completes the character. -/
theorem piecesFrom_last (c : Char) (bytes : List UInt8) :
    piecesFrom (.inside 0 0x80 0xBF (c.toNat / 64)) (tailByte c.toNat :: bytes) =
      some c :: pieces bytes := by
  have hhigh : c.toNat % 64 + 0x80 ≤ 0xBF := by omega
  rw [piecesFrom, step_tailByte (Nat.le_add_left _ _) hhigh, Char.ofNat_toNat]
  rfl

theorem start_two :
    ∀ n < 0x20, 2 ≤ n → start (leadByte 0xC0 n) = ([], .inside 0 0x80 0xBF n) := by
  decide

/-- The range of the second byte excludes longer forms of what two bytes hold, and surrogates. -/
theorem start_three {c : Char} (hlow : 0x800 ≤ c.toNat) (hhigh : c.toNat < 0x10000) :
    ∃ low high, start (leadByte 0xE0 (c.toNat / 4096)) =
        ([], .inside 1 low high (c.toNat / 64 / 64)) ∧
      low.toNat ≤ c.toNat / 64 % 64 + 0x80 ∧ c.toNat / 64 % 64 + 0x80 ≤ high.toNat := by
  have hothers : ∀ n < 16, 0 < n ∧ n ≠ 13 →
      start (leadByte 0xE0 n) = ([], .inside 1 0x80 0xBF n) := by decide
  have hlead : c.toNat / 64 / 64 = c.toNat / 4096 := Nat.div_div_eq_div_mul _ _ _
  rw [hlead]
  by_cases hzero : c.toNat / 4096 = 0
  · rw [hzero]
    refine ⟨0xA0, 0xBF, rfl, ?_, ?_⟩
    · change 0xA0 ≤ c.toNat / 64 % 64 + 0x80
      omega
    · change c.toNat / 64 % 64 + 0x80 ≤ 0xBF
      omega
  -- half of the codes that begin with this byte are surrogates, and so no characters
  by_cases hsurrogates : c.toNat / 4096 = 13
  · rw [hsurrogates]
    refine ⟨0x80, 0x9F, rfl, Nat.le_add_left _ _, ?_⟩
    change c.toNat / 64 % 64 + 0x80 ≤ 0x9F
    rcases c.valid with hsmall | ⟨hgreat, -⟩
    · have hbound : c.toNat < 0xD800 := hsmall
      omega
    · have hbound : 0xDFFF < c.toNat := hgreat
      omega
  · have hlead := hothers _ (by omega) ⟨Nat.pos_of_ne_zero hzero, hsurrogates⟩
    refine ⟨0x80, 0xBF, hlead, Nat.le_add_left _ _, ?_⟩
    change c.toNat / 64 % 64 + 0x80 ≤ 0xBF
    omega

/-- The range of the second byte excludes longer forms of what three bytes hold, and what lies
beyond the last character. -/
theorem start_four {c : Char} (hlow : 0x10000 ≤ c.toNat) :
    ∃ low high, start (leadByte 0xF0 (c.toNat / 262144)) =
        ([], .inside 2 low high (c.toNat / 4096 / 64)) ∧
      low.toNat ≤ c.toNat / 4096 % 64 + 0x80 ∧ c.toNat / 4096 % 64 + 0x80 ≤ high.toNat := by
  have hbound := toNat_lt_of_char c
  have hothers : ∀ n < 4, 0 < n →
      start (leadByte 0xF0 n) = ([], .inside 2 0x80 0xBF n) := by decide
  have hlead : c.toNat / 4096 / 64 = c.toNat / 262144 := Nat.div_div_eq_div_mul _ _ _
  rw [hlead]
  by_cases hzero : c.toNat / 262144 = 0
  · rw [hzero]
    refine ⟨0x90, 0xBF, rfl, ?_, ?_⟩
    · change 0x90 ≤ c.toNat / 4096 % 64 + 0x80
      omega
    · change c.toNat / 4096 % 64 + 0x80 ≤ 0xBF
      omega
  by_cases hlast : c.toNat / 262144 = 4
  · rw [hlast]
    refine ⟨0x80, 0x8F, rfl, Nat.le_add_left _ _, ?_⟩
    change c.toNat / 4096 % 64 + 0x80 ≤ 0x8F
    omega
  · have hlead := hothers _ (by omega) (Nat.pos_of_ne_zero hzero)
    refine ⟨0x80, 0xBF, hlead, Nat.le_add_left _ _, ?_⟩
    change c.toNat / 4096 % 64 + 0x80 ≤ 0xBF
    omega

/-- **The bytes of a character are read as the character**, whatever follows them. -/
theorem pieces_utf8EncodeChar (c : Char) (bytes : List UInt8) :
    pieces (String.utf8EncodeChar c ++ bytes) = some c :: pieces bytes := by
  by_cases hone : c.toNat < 0x80
  · have hbyte : UInt8.ofNat c.toNat < 0x80 := by
      rw [UInt8.lt_iff_toNat_lt, toNat_byte_of_ascii hone]
      exact hone
    rw [utf8EncodeChar_of_ascii hone, List.singleton_append, pieces, piecesFrom, step, start,
      if_pos hbyte, toNat_byte_of_ascii hone, Char.ofNat_toNat]
    rfl
  rw [Nat.not_lt] at hone
  by_cases htwo : c.toNat < 0x800
  · rw [utf8EncodeChar_two hone htwo]
    have hstart := start_two (c.toNat / 64) (by omega) (by omega)
    exact (pieces_cons_of_start hstart _).trans (piecesFrom_last c bytes)
  rw [Nat.not_lt] at htwo
  by_cases hthree : c.toNat < 0x10000
  · obtain ⟨low, high, hstart, hlow, hhigh⟩ := start_three htwo hthree
    rw [utf8EncodeChar_three htwo hthree]
    calc pieces _ = piecesFrom _ _ := pieces_cons_of_start hstart _
      _ = piecesFrom _ _ := piecesFrom_more hlow hhigh _
      _ = some c :: pieces bytes := piecesFrom_last c bytes
  rw [Nat.not_lt] at hthree
  obtain ⟨low, high, hstart, hlow, hhigh⟩ := start_four hthree
  have hthird : c.toNat / 64 % 64 + 0x80 ≤ 0xBF := by omega
  have hsecond : c.toNat / 4096 = c.toNat / 64 / 64 := (Nat.div_div_eq_div_mul _ 64 64).symm
  rw [utf8EncodeChar_four hthree]
  calc pieces _ = piecesFrom _ _ := pieces_cons_of_start hstart _
    _ = piecesFrom (.inside 1 0x80 0xBF (c.toNat / 4096)) _ := piecesFrom_more hlow hhigh _
    _ = piecesFrom (.inside 0 0x80 0xBF (c.toNat / 64)) _ := by
        rw [hsecond]
        exact piecesFrom_more (Nat.le_add_left _ _) hthird _
    _ = some c :: pieces bytes := piecesFrom_last c bytes

theorem pieces_encode (cs : List Char) : pieces (encode cs) = cs.map some := by
  induction cs with
  | nil => rfl
  | cons c cs ih => rw [encode_cons, pieces_utf8EncodeChar, ih, List.map_cons]

/-- **The bytes of a text spell the text.** -/
theorem decode?_encode (cs : List Char) : decode? (encode cs) = some cs := by
  rw [decode?, pieces_encode]
  induction cs with
  | nil => rfl
  | cons c cs ih => rw [List.map_cons, List.mapM_cons, ih]; rfl

/-! ### Bytes that are not ASCII -/

theorem le_leadByte {mark bits : ℕ} (hmark : 0x80 ≤ mark) (hbound : bits + mark < 256) :
    0x80 ≤ leadByte mark bits := by
  rw [UInt8.le_iff_toNat_le, leadByte, UInt8.toNat_ofNat_of_lt' hbound]
  exact Nat.le_trans hmark (Nat.le_add_left mark bits)

theorem le_tailByte (bits : ℕ) : 0x80 ≤ tailByte bits := by
  rw [UInt8.le_iff_toNat_le, toNat_tailByte]
  exact Nat.le_add_left _ _

/-- No byte of a character that is not ASCII is that of an ASCII character. -/
theorem le_of_mem_utf8EncodeChar {c : Char} (hc : 0x80 ≤ c.toNat) :
    ∀ byte ∈ String.utf8EncodeChar c, 0x80 ≤ byte := by
  have hbound := toNat_lt_of_char c
  by_cases htwo : c.toNat < 0x800
  · rw [utf8EncodeChar_two hc htwo]
    simp only [List.forall_mem_cons, List.not_mem_nil, false_implies, implies_true, and_true]
    exact ⟨le_leadByte (by decide) (by omega), le_tailByte _⟩
  rw [Nat.not_lt] at htwo
  by_cases hthree : c.toNat < 0x10000
  · rw [utf8EncodeChar_three htwo hthree]
    simp only [List.forall_mem_cons, List.not_mem_nil, false_implies, implies_true, and_true]
    exact ⟨le_leadByte (by decide) (by omega), le_tailByte _, le_tailByte _⟩
  · rw [utf8EncodeChar_four (Nat.not_lt.mp hthree)]
    simp only [List.forall_mem_cons, List.not_mem_nil, false_implies, implies_true, and_true]
    exact ⟨le_leadByte (by decide) (by omega), le_tailByte _, le_tailByte _, le_tailByte _⟩

end ServiceWatch.Text.Utf8
