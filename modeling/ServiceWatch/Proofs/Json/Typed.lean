import ServiceWatch.Json.Typed
import ServiceWatch.Proofs.Json.Numeral

/-!
# What is read is passed over as well

A record reads the values of its fields and passes over all others, so it matters that the two ways
agree: a reader of a value that succeeds leaves what passing over the value would have left.  For a
string this says that its text is one of the grammar; for numbers it is what `Numeral` shows.
-/

namespace ServiceWatch.Json

variable {α : Type} {s rest more : Input} {number : Binary64}

/-! ### Strings -/

theorem readTrailing_eq_ok {leading code : ℕ} (htrailing : readTrailing leading s = .ok (code, rest)) :
    ∃ a b c d unit, hexValue? a b c d = some unit ∧
      s = 0x5C :: 0x75 :: a :: b :: c :: d :: rest := by
  unfold readTrailing at htrailing
  split at htrailing
  next => exact absurd htrailing failAt_ne_ok
  next => exact absurd htrailing failAt_ne_ok
  next =>
    obtain ⟨⟨unit, left⟩, hhex, hrange⟩ := bind_eq_ok_iff.mp htrailing
    obtain ⟨a, b, c, d, hunit, rfl⟩ := readHex_eq_ok hhex
    simp only at hrange
    split_ifs at hrange
    · obtain ⟨-, rfl⟩ := Prod.mk.inj (Except.ok.inj hrange)
      exact ⟨a, b, c, d, unit, hunit, rfl⟩
    · exact absurd hrange failAt_ne_ok
  next => exact absurd htrailing failAt_ne_ok
  next => exact absurd htrailing failAt_ne_ok

/-- A character that is written by its code is one escape, or two for a surrogate pair. -/
theorem readCodePoint_eq_ok {code : ℕ} (hcode : readCodePoint s = .ok (code, rest)) :
    ∃ escape, IsEscape (0x75 :: escape) ∧ s = escape ++ rest := by
  obtain ⟨⟨unit, left⟩, hhex, hrange⟩ := bind_eq_ok_iff.mp hcode
  obtain ⟨a, b, c, d, hunit, rfl⟩ := readHex_eq_ok hhex
  simp only at hrange
  split_ifs at hrange
  · exact absurd hrange failAt_ne_ok
  · obtain ⟨a', b', c', d', other, hother, rfl⟩ := readTrailing_eq_ok hrange
    exact ⟨[a, b, c, d, 0x5C, 0x75, a', b', c', d'],
      fun text htext => isEscape_code hunit _ (isEscape_code hother text htext), rfl⟩
  · obtain ⟨-, rfl⟩ := Prod.mk.inj (Except.ok.inj hrange)
    exact ⟨[a, b, c, d], isEscape_code hunit, rfl⟩

theorem readEscape_eq_ok {bytes : List UInt8} (hescape : readEscape s = .ok (bytes, rest)) :
    ∃ escape, IsEscape escape ∧ s = escape ++ rest := by
  cases s with
  | nil => exact absurd hescape (by simp [readEscape])
  | cons byte s =>
      rw [readEscape] at hescape
      split_ifs at hescape with hcode
      · obtain ⟨⟨code, left⟩, hpoint, hbytes⟩ := bind_eq_ok_iff.mp hescape
        obtain ⟨-, rfl⟩ := Prod.mk.inj (Except.ok.inj hbytes)
        obtain ⟨escape, hvalid, rfl⟩ := readCodePoint_eq_ok hpoint
        exact ⟨0x75 :: escape, hvalid, by rw [hcode]; rfl⟩
      · split at hescape
        next letter hletter =>
          obtain ⟨-, rfl⟩ := Prod.mk.inj (Except.ok.inj hescape)
          exact ⟨[byte], isEscape_letter (by rw [hletter]; rfl), rfl⟩
        next => exact absurd hescape failAt_ne_ok

theorem readBytes_eq_ok {before bytes : List UInt8} {fuel : ℕ}
    (hbytes : readBytes before fuel s = .ok (bytes, rest)) :
    ∃ text, IsInside text ∧ s = text ++ 0x22 :: rest := by
  induction fuel generalizing before s with
  | zero => exact absurd hbytes (by simp [readBytes])
  | succ fuel ih =>
      cases s with
      | nil => exact absurd hbytes (by simp [readBytes])
      | cons byte s =>
          rw [readBytes] at hbytes
          split_ifs at hbytes with hquote hslash hcontrol
          · obtain ⟨-, rfl⟩ := Prod.mk.inj (Except.ok.inj hbytes)
            exact ⟨[], .nil, by rw [hquote]; rfl⟩
          · split at hbytes
            next hescape =>
              obtain ⟨escape, hvalid, rfl⟩ := readEscape_eq_ok hescape
              obtain ⟨text, htext, rfl⟩ := ih hbytes
              exact ⟨_, hvalid text htext, by simp [hslash]⟩
            next => exact absurd hbytes (by simp)
          · exact absurd hbytes failAt_ne_ok
          · obtain ⟨text, htext, rfl⟩ := ih hbytes
            exact ⟨byte :: text, .byte hquote hslash hcontrol htext, rfl⟩

/-- Between the quotation marks of a string that is read stands what the grammar has there. -/
theorem readString_eq_ok {name : String} (hstring : readString s = .ok (name, rest)) :
    ∃ text, IsInside text ∧ s = text ++ 0x22 :: rest := by
  obtain ⟨⟨bytes, left⟩, hbytes, hdecode⟩ := bind_eq_ok_iff.mp hstring
  simp only at hdecode
  split at hdecode
  next =>
    obtain ⟨-, rfl⟩ := Prod.mk.inj (Except.ok.inj hdecode)
    exact readBytes_eq_ok hbytes
  next => exact absurd hdecode failAt_ne_ok

/-! ### Values -/

variable {expected : String}

theorem skipValue_of_skipStart (hstart : skipStart s = .ok (none, rest)) :
    skipValue s = .ok rest := by
  have hstep : skipStep [] .value s = .ok (some ([], .next), rest) := by
    simp only [skipStep, hstart, bind, Except.bind]
  rw [skipValue, skipWith, hstep]
  rfl

theorem readWrongKind_ne_ok (s : Input) (result : α × Input) :
    readWrongKind expected s ≠ .ok result := by
  have hbind : ∀ {β : Type} (read : Except Failure β) (next : β → Except Failure (α × Input)),
      (∀ value, ∃ failure, next value = .error failure) → read >>= next ≠ .ok result := by
    intro β read next hnext heq
    obtain ⟨value, -, hvalue⟩ := bind_eq_ok_iff.mp heq
    obtain ⟨failure, hfailure⟩ := hnext value
    exact absurd (hvalue.symm.trans hfailure) (by simp)
  unfold readWrongKind
  split
  next => exact failAt_ne_ok
  next byte t =>
    split_ifs
    · exact hbind _ _ fun _ => ⟨_, rfl⟩
    · exact hbind _ _ fun _ => ⟨_, rfl⟩
    · exact hbind _ _ fun _ => ⟨_, rfl⟩
    · exact hbind _ _ fun _ => ⟨_, rfl⟩
    · exact hbind _ _ fun _ => ⟨_, rfl⟩
    · exact hbind _ _ fun _ => ⟨_, rfl⟩
    · exact failAt_ne_ok
    · exact failAt_ne_ok
    · exact failAt_ne_ok

/-- A number that is read is a literal behind blanks, and its sign if it has one. -/
theorem readNumber_eq_ok {numeral : Numeral}
    (hread : readNumber expected s = .ok (numeral, rest)) :
    ∃ byte t, skipGap s = byte :: t ∧
      (byte = 0x2D ∧ readNumeral true t = .ok (numeral, rest) ∨
        isDigit byte = true ∧ readNumeral false (byte :: t) = .ok (numeral, rest)) := by
  unfold readNumber at hread
  split at hread
  next => exact absurd hread failAt_ne_ok
  next byte t hskip =>
    refine ⟨byte, t, hskip, ?_⟩
    split_ifs at hread with hminus hdigit
    · exact Or.inl ⟨hminus, hread⟩
    · exact Or.inr ⟨hdigit, hread⟩
    · exact absurd hread (readWrongKind_ne_ok _ _)

theorem skipGap_append_of_eq_cons {byte : UInt8} {t : Input} (hskip : skipGap s = byte :: t)
    (more : Input) : skipGap (s ++ more) = byte :: (t ++ more) := by
  unfold skipGap at hskip ⊢
  rw [List.dropWhile_append, hskip]
  rfl

theorem skipStart_of_readNumber {numeral : Numeral}
    (hread : readNumber expected s = .ok (numeral, rest)) : skipStart s = .ok (none, rest) := by
  obtain ⟨byte, t, hskip, ⟨rfl, hnumeral⟩ | ⟨hdigit, hnumeral⟩⟩ := readNumber_eq_ok hread
  · exact skipStart_minus hskip ((follows_readNumeral true).skip hnumeral)
  · exact skipStart_digit hskip hdigit ((follows_readNumeral false).skip hnumeral)

theorem readNumber_append {numeral : Numeral} (hread : readNumber expected s = .ok (numeral, rest))
    (hmore : Stops more) : readNumber expected (s ++ more) = .ok (numeral, rest ++ more) := by
  obtain ⟨byte, t, hskip, hnumber⟩ := readNumber_eq_ok hread
  rw [readNumber, skipGap_append_of_eq_cons hskip]
  rcases hnumber with ⟨rfl, hnumeral⟩ | ⟨hdigit, hnumeral⟩
  · exact (follows_readNumeral true).append hnumeral hmore
  · have hminus : byte ≠ 0x2D := ne_of_isDigit hdigit (by decide)
    simp only [if_neg hminus, if_pos hdigit]
    exact (follows_readNumeral false).append hnumeral hmore

theorem readBinary64_eq_ok (hread : readBinary64 s = .ok (number, rest)) :
    ∃ numeral, readNumber "f64" s = .ok (numeral, rest) ∧ numeral.toBinary64 = number := by
  obtain ⟨⟨numeral, left⟩, hnumber, hresult⟩ := bind_eq_ok_iff.mp hread
  obtain ⟨hvalue, rfl⟩ := Prod.mk.inj (Except.ok.inj hresult)
  exact ⟨numeral, hnumber, hvalue⟩

theorem skipStart_of_readBinary64 (hread : readBinary64 s = .ok (number, rest)) :
    skipStart s = .ok (none, rest) := by
  obtain ⟨numeral, hnumber, -⟩ := readBinary64_eq_ok hread
  exact skipStart_of_readNumber hnumber

/-- **A number that the reader accepts is read in front of anything that ends a literal.** -/
theorem readBinary64_append (hread : readBinary64 s = .ok (number, rest)) (hmore : Stops more) :
    readBinary64 (s ++ more) = .ok (number, rest ++ more) := by
  obtain ⟨numeral, hnumber, rfl⟩ := readBinary64_eq_ok hread
  simp only [readBinary64, readNumber_append hnumber hmore, bind, Except.bind]

/-- A number that is read without blanks in front of it begins as one, whatever follows. -/
theorem beginsNumber_of_readBinary64 (hs : BeginsValue s)
    (hread : readBinary64 s = .ok (number, rest)) (more : Input) : BeginsNumber (s ++ more) := by
  obtain ⟨first, tail, rfl, hgap, -⟩ := hs
  obtain ⟨numeral, hnumber, -⟩ := readBinary64_eq_ok hread
  obtain ⟨byte, t, hskip, hbegins⟩ := readNumber_eq_ok hnumber
  rw [skipGap_of_not_isGap hgap] at hskip
  obtain ⟨rfl, rfl⟩ := List.cons_eq_cons.mp hskip
  exact ⟨first, tail ++ more, rfl, hbegins.imp And.left And.left⟩

theorem skipStart_of_readUInt64 {value : UInt64} (hread : readUInt64 s = .ok (value, rest)) :
    skipStart s = .ok (none, rest) := by
  obtain ⟨⟨numeral, left⟩, hnumber, hword⟩ := bind_eq_ok_iff.mp hread
  simp only at hword
  split at hword
  next =>
    obtain ⟨-, rfl⟩ := Prod.mk.inj (Except.ok.inj hword)
    exact skipStart_of_readNumber hnumber
  next => exact absurd hword failAt_ne_ok

theorem skipStart_null {t : Input} (hskip : skipGap s = 0x6E :: t)
    (hword : readWord [0x75, 0x6C, 0x6C] t = .ok rest) : skipStart s = .ok (none, rest) := by
  unfold skipStart
  rw [hskip]
  simp [hword, bind, Except.bind]

theorem skipStart_skipGap (s : Input) : skipStart (skipGap s) = skipStart s := by
  obtain ⟨gap, hgap, heq⟩ := exists_of_skipGap (s := s) rfl
  have hskip : skipGap (skipGap s) = skipGap s := by
    conv_rhs => rw [heq, skipGap_append hgap]
  unfold skipStart
  rw [hskip]

/-- **An optional value that is read is passed over**, if the value itself is. -/
theorem skipValue_of_readOptional {read : Input → Except Failure (α × Input)}
    (hfollows : ∀ {s rest value}, read s = .ok (value, rest) → skipStart s = .ok (none, rest))
    {value : Option α} (hread : readOptional read s = .ok (value, rest)) :
    skipValue s = .ok rest := by
  unfold readOptional at hread
  split at hread
  next t hskip =>
    obtain ⟨left, hword, hrest⟩ := bind_eq_ok_iff.mp hread
    obtain ⟨-, rfl⟩ := Prod.mk.inj (Except.ok.inj hrest)
    exact skipValue_of_skipStart (skipStart_null hskip hword)
  next =>
    obtain ⟨⟨found, left⟩, hfound, hrest⟩ := bind_eq_ok_iff.mp hread
    obtain ⟨-, rfl⟩ := Prod.mk.inj (Except.ok.inj hrest)
    exact skipValue_of_skipStart ((skipStart_skipGap s).symm.trans (hfollows hfound))

end ServiceWatch.Json
