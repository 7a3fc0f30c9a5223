import ServiceWatch.Proofs.Json.Passage

/-!
# Numbers are read as far as they are passed over

The reader of a number collects the digits while they fit and drops those that no longer do; then it
takes the fraction and the exponent.  Whatever of that it does, it comes to stand where passing over
the number leads (`Follows.skip`): the digits that were not collected are the last of those at the
front (`dropWhile_collectDigits`).

A number that is read at the end of the input is read just so in front of anything that ends a
literal (`Follows.append`).
-/

namespace ServiceWatch.Json

variable {α : Type} {s rest more : Input} {m : ℕ} {negative : Bool} {exponent : ℤ}
  {number : Binary64}

/-! ### Digits -/

theorem dropWhile_append_of_endsDigits (hmore : EndsDigits more) (s : Input) :
    (s ++ more).dropWhile isDigit = s.dropWhile isDigit ++ more := by
  induction s with
  | nil => exact dropWhile_digits (fun _ hbyte => absurd hbyte List.not_mem_nil) hmore
  | cons byte s ih =>
      rw [List.cons_append, List.dropWhile_cons, List.dropWhile_cons]
      split_ifs
      · exact ih
      · rfl

theorem takeWhile_append_of_endsDigits (hmore : EndsDigits more) (s : Input) :
    (s ++ more).takeWhile isDigit = s.takeWhile isDigit := by
  induction s with
  | nil =>
      cases more with
      | nil => rfl
      | cons byte more => rw [List.nil_append, List.takeWhile_cons, hmore byte rfl]; rfl
  | cons byte s ih =>
      rw [List.cons_append, List.takeWhile_cons, List.takeWhile_cons, ih]

theorem isDigit_of_digit? {byte : UInt8} {d : ℕ} (hd : digit? byte = some d) :
    isDigit byte = true := by
  rw [isDigit, hd, Option.isSome_some]

theorem isDigit_of_digit?_none {byte : UInt8} (hbyte : digit? byte = none) :
    isDigit byte = false := by
  rw [isDigit, hbyte, Option.isSome_none]

/-- The digits that were not collected are the last of those at the front of the input. -/
theorem dropWhile_collectDigits (limit value count : ℕ) (s : Input) :
    (collectDigits limit value count s).2.dropWhile isDigit = s.dropWhile isDigit := by
  induction s generalizing value count with
  | nil => rfl
  | cons byte s ih =>
      rw [collectDigits]
      cases hd : digit? byte with
      | none => rfl
      | some d =>
          simp only
          split_ifs with hfull
          · rfl
          · rw [ih, List.dropWhile_cons_of_pos (isDigit_of_digit? hd)]

/-- Unless one did not fit, all digits were collected. -/
theorem collectDigits_rest {limit value count : ℕ} {s : Input}
    (hfull : (collectDigits limit value count s).1.isFull = false) :
    (collectDigits limit value count s).2 = s.dropWhile isDigit := by
  induction s generalizing value count with
  | nil => rfl
  | cons byte s ih =>
      rw [collectDigits] at hfull ⊢
      cases hd : digit? byte with
      | none => rw [List.dropWhile_cons_of_neg (by rw [isDigit_of_digit?_none hd]; decide)]
      | some d =>
          simp only [hd] at hfull ⊢
          split_ifs at hfull ⊢ with hlimit
          rw [ih hfull, List.dropWhile_cons_of_pos (isDigit_of_digit? hd)]

/-- If digits were collected, or the first did not fit, then there are digits. -/
theorem skipDigits_of_collectDigits {value : ℕ}
    (hsome : (collectDigits limit value 0 s).1.isFull = true ∨
      (collectDigits limit value 0 s).1.count ≠ 0) :
    skipDigits s = .ok (s.dropWhile isDigit) := by
  cases s with
  | nil => exact absurd hsome (by simp [collectDigits])
  | cons byte s =>
      cases hd : digit? byte with
      | none => exact absurd hsome (by simp [collectDigits, hd])
      | some d =>
          have hbyte := isDigit_of_digit? hd
          rw [skipDigits, if_pos hbyte, List.dropWhile_cons_of_pos hbyte]

theorem collectDigits_append (hmore : EndsDigits more) (limit value count : ℕ) (s : Input) :
    collectDigits limit value count (s ++ more) =
      ((collectDigits limit value count s).1, (collectDigits limit value count s).2 ++ more) := by
  induction s generalizing value count with
  | nil =>
      cases more with
      | nil => rfl
      | cons byte more =>
          have hbyte : digit? byte = none := by simpa [isDigit] using hmore byte rfl
          simp [collectDigits, hbyte]
  | cons byte s ih =>
      rw [List.cons_append, collectDigits, collectDigits]
      cases digit? byte with
      | none => rfl
      | some d =>
          simp only
          split_ifs
          · rfl
          · exact ih _ _

/-! ### Numbers -/

/-- What a reader reads is passed over as well, and it is read just so in front of anything that
ends a literal. -/
structure Follows (read : Input → Except Failure (α × Input))
    (skip : Input → Except Failure Input) : Prop where
  skip : ∀ {s rest : Input} {value : α}, read s = .ok (value, rest) → skip s = .ok rest
  append : ∀ {s rest more : Input} {value : α}, read s = .ok (value, rest) → Stops more →
    read (s ++ more) = .ok (value, rest ++ more)

theorem head?_append_of_stops (hmore : Stops more) {byte : UInt8}
    (hbyte : byte = 0x2E ∨ byte = 0x65 ∨ byte = 0x45) :
    (s ++ more).head? = some byte ↔ s.head? = some byte := by
  cases s with
  | nil =>
      refine ⟨fun hhead => ?_, fun hhead => absurd hhead (by simp)⟩
      obtain ⟨-, hpoint, hsmall, hgreat⟩ := hmore byte hhead
      rcases hbyte with rfl | rfl | rfl
      · exact absurd rfl hpoint
      · exact absurd rfl hsmall
      · exact absurd rfl hgreat
  | cons first s => exact Iff.rfl

theorem scaled_eq_ok (hscaled : scaled negative m exponent s = .ok (number, rest)) :
    rest = s ∧ ∀ other, scaled negative m exponent other = .ok (number, other) := by
  unfold scaled at hscaled ⊢
  split at hscaled
  next rank hrank =>
    split_ifs at hscaled with hfinite
    · obtain ⟨rfl, rfl⟩ := Prod.mk.inj (Except.ok.inj hscaled)
      exact ⟨rfl, fun other => by simp only [dif_pos hfinite]⟩
    · exact absurd hscaled failAt_ne_ok
  next => exact absurd hscaled failAt_ne_ok

/-- The sign of an exponent, if there is one, and what is behind it. -/
def exponentSign : Input → Bool × Input
  | 0x2B :: s => (false, s)
  | 0x2D :: s => (true, s)
  | s => (false, s)

theorem skipExponent_eq (s : Input) : skipExponent s = skipDigits (exponentSign s).2 := by
  unfold skipExponent
  split
  next => rfl
  next => rfl
  next hplus hminus =>
    unfold exponentSign
    split
    next => exact absurd rfl (hplus _)
    next => exact absurd rfl (hminus _)
    next => rfl

theorem exponentSign_append (hne : s ≠ []) (more : Input) :
    exponentSign (s ++ more) = ((exponentSign s).1, (exponentSign s).2 ++ more) := by
  obtain ⟨byte, s, rfl⟩ := List.exists_cons_of_ne_nil hne
  rw [List.cons_append]
  unfold exponentSign
  split
  next heq =>
    obtain ⟨rfl, rfl⟩ := List.cons_eq_cons.mp heq
    rfl
  next heq =>
    obtain ⟨rfl, rfl⟩ := List.cons_eq_cons.mp heq
    rfl
  next hplus hminus =>
    split
    next heq => exact absurd (by rw [(List.cons_eq_cons.mp heq).1]) (hplus (s ++ more))
    next heq => exact absurd (by rw [(List.cons_eq_cons.mp heq).1]) (hminus (s ++ more))
    next => rfl

/-- The number with the exponent that these digits say. -/
def weighed (negative : Bool) (m : ℕ) (exponent : ℤ) (below : Bool) (digits : Digits) (s : Input) :
    Except Failure (Binary64 × Input) :=
  if digits.isFull then
    if m ≠ 0 ∧ !below then failBehind .numberOutOfRange s else .ok (.signedZero negative, s)
  else
    scaled negative m
      (addExponents exponent (if below then -(digits.value : ℤ) else digits.value)) s

theorem weighed_eq_ok {below : Bool} {digits : Digits}
    (hweighed : weighed negative m exponent below digits s = .ok (number, rest)) :
    rest = s ∧ ∀ other, weighed negative m exponent below digits other = .ok (number, other) := by
  unfold weighed at hweighed ⊢
  by_cases hfull : digits.isFull = true
  · rw [if_pos hfull] at hweighed
    simp only [if_pos hfull]
    split_ifs at hweighed ⊢ with hgreat
    · exact absurd hweighed failBehind_ne_ok
    · obtain ⟨rfl, rfl⟩ := Prod.mk.inj (Except.ok.inj hweighed)
      exact ⟨rfl, fun other => rfl⟩
  · rw [if_neg hfull] at hweighed
    simp only [if_neg hfull]
    exact scaled_eq_ok hweighed

/-- The number with these digits as its exponent, with the input as it was left by collecting
them. -/
def weighedBehind (negative : Bool) (m : ℕ) (exponent : ℤ) (below : Bool) (digits : Digits)
    (left : Input) : Except Failure (Binary64 × Input) :=
  if digits.count = 0 then
    match left with
    | [] => failAt (.endInside .value) []
    | _ :: left => failAt .invalidNumber left
  else if digits.isFull then
    if m ≠ 0 ∧ !below then failBehind .numberOutOfRange left
    else .ok (.signedZero negative, left.dropWhile isDigit)
  else
    scaled negative m
      (addExponents exponent (if below then -(digits.value : ℤ) else digits.value)) left

theorem readExponent_eq (negative : Bool) (m : ℕ) (exponent : ℤ) (s : Input) :
    readExponent negative m exponent s =
      weighedBehind negative m exponent (exponentSign s).1
        (collectDigits exponentLimit 0 0 (exponentSign s).2).1
        (collectDigits exponentLimit 0 0 (exponentSign s).2).2 :=
  rfl

theorem weighedBehind_eq_ok_iff {below : Bool} {digits : Digits} {left : Input}
    (hleft : digits.isFull = false → left = left.dropWhile isDigit) :
    weighedBehind negative m exponent below digits left = .ok (number, rest) ↔
      digits.count ≠ 0 ∧
        weighed negative m exponent below digits (left.dropWhile isDigit) = .ok (number, rest) := by
  unfold weighedBehind weighed
  by_cases hcount : digits.count = 0
  · rw [if_pos hcount]
    cases left <;> simp [hcount]
  rw [if_neg hcount]
  by_cases hfull : digits.isFull = true
  · rw [if_pos hfull, if_pos hfull]
    split_ifs
    · simp
    · simp [hcount]
  · rw [if_neg hfull, if_neg hfull, ← hleft (Bool.eq_false_iff.mpr hfull)]
    simp [hcount]

theorem readExponent_eq_ok_iff :
    readExponent negative m exponent s = .ok (number, rest) ↔
      (collectDigits exponentLimit 0 0 (exponentSign s).2).1.count ≠ 0 ∧
        weighed negative m exponent (exponentSign s).1
          (collectDigits exponentLimit 0 0 (exponentSign s).2).1
          ((exponentSign s).2.dropWhile isDigit) = .ok (number, rest) := by
  rw [readExponent_eq, ← dropWhile_collectDigits exponentLimit 0 0 (exponentSign s).2]
  refine weighedBehind_eq_ok_iff fun hfull => ?_
  rw [dropWhile_collectDigits]
  exact collectDigits_rest hfull

theorem follows_readExponent (negative : Bool) (m : ℕ) (exponent : ℤ) :
    Follows (readExponent negative m exponent) skipExponent where
  skip := by
    intro s rest number hread
    obtain ⟨hcount, hweighed⟩ := readExponent_eq_ok_iff.mp hread
    obtain ⟨rfl, -⟩ := weighed_eq_ok hweighed
    rw [skipExponent_eq, skipDigits_of_collectDigits (Or.inr hcount)]
  append := by
    intro s rest more number hread hmore
    obtain ⟨hcount, hweighed⟩ := readExponent_eq_ok_iff.mp hread
    obtain ⟨rfl, hother⟩ := weighed_eq_ok hweighed
    have hne : s ≠ [] := by
      rintro rfl
      exact hcount rfl
    rw [readExponent_eq_ok_iff, exponentSign_append hne, collectDigits_append hmore.endsDigits,
      dropWhile_append_of_endsDigits hmore.endsDigits]
    exact ⟨hcount, hother _⟩

/-- Without its letter there is no exponent. -/
theorem readScale_of_ne (hsmall : s.head? ≠ some 0x65) (hgreat : s.head? ≠ some 0x45) :
    readScale negative m exponent s = scaled negative m exponent s := by
  cases s with
  | nil => rfl
  | cons byte s =>
      rw [readScale, if_neg]
      rintro (rfl | rfl)
      · exact hsmall rfl
      · exact hgreat rfl

theorem readScale_letter {letter : UInt8} (hletter : letter = 0x65 ∨ letter = 0x45) (s : Input) :
    readScale negative m exponent (letter :: s) = readExponent negative m exponent s := by
  rw [readScale, if_pos hletter]

theorem skipScale_of_ne (hsmall : s.head? ≠ some 0x65) (hgreat : s.head? ≠ some 0x45) :
    skipScale s = .ok s := by
  unfold skipScale
  split
  next => exact absurd rfl hsmall
  next => exact absurd rfl hgreat
  next => rfl

theorem skipScale_letter {letter : UInt8} (hletter : letter = 0x65 ∨ letter = 0x45) (s : Input) :
    skipScale (letter :: s) = skipExponent s := by
  rcases hletter with rfl | rfl <;> rfl

/-- The input goes on with an exponent, or it does not. -/
theorem letter_cases (s : Input) :
    (∃ letter t, (letter = 0x65 ∨ letter = 0x45) ∧ s = letter :: t) ∨
      s.head? ≠ some 0x65 ∧ s.head? ≠ some 0x45 := by
  by_cases hsmall : s.head? = some 0x65
  · obtain ⟨t, rfl⟩ := List.head?_eq_some_iff.mp hsmall
    exact Or.inl ⟨0x65, t, Or.inl rfl, rfl⟩
  by_cases hgreat : s.head? = some 0x45
  · obtain ⟨t, rfl⟩ := List.head?_eq_some_iff.mp hgreat
    exact Or.inl ⟨0x45, t, Or.inr rfl, rfl⟩
  exact Or.inr ⟨hsmall, hgreat⟩

theorem follows_readScale (negative : Bool) (m : ℕ) (exponent : ℤ) :
    Follows (readScale negative m exponent) skipScale where
  skip := by
    intro s rest number hread
    rcases letter_cases s with ⟨letter, t, hletter, rfl⟩ | ⟨hsmall, hgreat⟩
    · rw [readScale_letter hletter] at hread
      rw [skipScale_letter hletter]
      exact (follows_readExponent negative m exponent).skip hread
    · rw [readScale_of_ne hsmall hgreat] at hread
      rw [skipScale_of_ne hsmall hgreat, (scaled_eq_ok hread).1]
  append := by
    intro s rest more number hread hmore
    rcases letter_cases s with ⟨letter, t, hletter, rfl⟩ | ⟨hsmall, hgreat⟩
    · rw [readScale_letter hletter] at hread
      rw [List.cons_append, readScale_letter hletter]
      exact (follows_readExponent negative m exponent).append hread hmore
    · rw [readScale_of_ne hsmall hgreat] at hread
      obtain ⟨rfl, hother⟩ := scaled_eq_ok hread
      rw [readScale_of_ne (mt (head?_append_of_stops hmore (by simp)).mp hsmall)
        (mt (head?_append_of_stops hmore (by simp)).mp hgreat)]
      exact hother _

theorem readFraction_eq_ok_iff :
    readFraction negative m exponent s = .ok (number, rest) ↔
      ((collectDigits significandLimit m 0 s).1.isFull = true ∨
          (collectDigits significandLimit m 0 s).1.count ≠ 0) ∧
        readScale negative (collectDigits significandLimit m 0 s).1.value
          (exponent - (collectDigits significandLimit m 0 s).1.count) (s.dropWhile isDigit) =
            .ok (number, rest) := by
  have hrest : (collectDigits significandLimit m 0 s).1.isFull = false →
      (collectDigits significandLimit m 0 s).2 = s.dropWhile isDigit := collectDigits_rest
  rw [← dropWhile_collectDigits significandLimit m 0 s] at hrest ⊢
  unfold readFraction
  generalize collectDigits significandLimit m 0 s = collected at hrest ⊢
  obtain ⟨digits, left⟩ := collected
  simp only at hrest ⊢
  by_cases hfull : digits.isFull = true
  · rw [if_pos hfull]
    simp [hfull]
  rw [if_neg hfull, ← hrest (Bool.eq_false_iff.mpr hfull)]
  by_cases hcount : digits.count = 0
  · rw [if_pos hcount]
    cases left <;> simp [hcount, hfull]
  · rw [if_neg hcount]
    simp [hcount]

theorem follows_readFraction (negative : Bool) (m : ℕ) (exponent : ℤ) :
    Follows (readFraction negative m exponent) fun s => skipDigits s >>= skipScale where
  skip := by
    intro s rest number hread
    obtain ⟨hsome, hscale⟩ := readFraction_eq_ok_iff.mp hread
    rw [skipDigits_of_collectDigits hsome]
    exact (follows_readScale _ _ _).skip hscale
  append := by
    intro s rest more number hread hmore
    obtain ⟨hsome, hscale⟩ := readFraction_eq_ok_iff.mp hread
    rw [readFraction_eq_ok_iff, collectDigits_append hmore.endsDigits,
      dropWhile_append_of_endsDigits hmore.endsDigits]
    exact ⟨hsome, (follows_readScale _ _ _).append hscale hmore⟩

theorem Follows.map {β : Type} {read : Input → Except Failure (α × Input)}
    {skip : Input → Except Failure Input} (hfollows : Follows read skip) (f : α → β) :
    Follows (fun s => (read s).map fun result => (f result.1, result.2)) skip where
  skip := by
    intro s rest value hread
    cases hfirst : read s with
    | error failure => exact absurd hread (by simp [hfirst, Except.map])
    | ok result =>
        simp only [hfirst, Except.map, Except.ok.injEq, Prod.mk.injEq] at hread
        obtain ⟨-, rfl⟩ := hread
        exact hfollows.skip hfirst
  append := by
    intro s rest more value hread hmore
    cases hfirst : read s with
    | error failure => exact absurd hread (by simp [hfirst, Except.map])
    | ok result =>
        simp only [hfirst, Except.map, Except.ok.injEq, Prod.mk.injEq] at hread
        obtain ⟨rfl, rfl⟩ := hread
        simp only [hfollows.append hfirst hmore, Except.map]

/-- Reads the fraction and the exponent of a floating-point number. -/
def readFloatTail (negative : Bool) (m : ℕ) (exponent : ℤ) (s : Input) :
    Except Failure (Binary64 × Input) :=
  match s with
  | 0x2E :: rest => readFraction negative m exponent rest
  | s => readScale negative m exponent s

theorem readFloatTail_of_ne (hpoint : s.head? ≠ some 0x2E) :
    readFloatTail negative m exponent s = readScale negative m exponent s := by
  unfold readFloatTail
  split
  next => exact absurd rfl hpoint
  next => rfl

theorem follows_readFloatTail (negative : Bool) (m : ℕ) (exponent : ℤ) :
    Follows (readFloatTail negative m exponent) skipTail where
  skip := by
    intro s rest number hread
    by_cases hpoint : s.head? = some 0x2E
    · obtain ⟨t, rfl⟩ := List.head?_eq_some_iff.mp hpoint
      exact (follows_readFraction negative m exponent).skip hread
    · rw [readFloatTail_of_ne hpoint] at hread
      rw [skipTail_of_ne hpoint]
      exact (follows_readScale negative m exponent).skip hread
  append := by
    intro s rest more number hread hmore
    by_cases hpoint : s.head? = some 0x2E
    · obtain ⟨t, rfl⟩ := List.head?_eq_some_iff.mp hpoint
      exact (follows_readFraction negative m exponent).append hread hmore
    · rw [readFloatTail_of_ne hpoint] at hread
      rw [readFloatTail_of_ne (mt (head?_append_of_stops hmore (by simp)).mp hpoint)]
      exact (follows_readScale negative m exponent).append hread hmore

/-- The number goes on with a point or a letter. -/
def HasTail (s : Input) : Prop :=
  s.head? = some 0x2E ∨ s.head? = some 0x65 ∨ s.head? = some 0x45

theorem hasTail_append (hmore : Stops more) : HasTail (s ++ more) ↔ HasTail s := by
  rw [HasTail, head?_append_of_stops hmore (by simp), head?_append_of_stops hmore (by simp),
    head?_append_of_stops hmore (by simp), HasTail]

theorem readTail_of_hasTail (htail : HasTail s) :
    readTail negative m s =
      (readFloatTail negative m 0 s).map fun result => (Numeral.float result.1, result.2) := by
  by_cases hpoint : s.head? = some 0x2E
  · obtain ⟨t, rfl⟩ := List.head?_eq_some_iff.mp hpoint
    exact readTail_point negative m t
  · have hletter := htail.resolve_left hpoint
    rw [readFloatTail_of_ne hpoint]
    unfold readTail
    split
    next => exact absurd rfl hpoint
    next =>
      rw [if_pos hletter]
      cases readScale negative m 0 s <;> rfl

theorem readTail_of_not_hasTail (htail : ¬ HasTail s) :
    readTail negative m s =
      .ok ((integerNumeral? negative m).getD (.float (.ofNat negative m)), s) := by
  unfold readTail
  split
  next => exact absurd (Or.inl rfl) htail
  next =>
    rw [if_neg fun hletter => htail (Or.inr hletter)]
    cases integerNumeral? negative m <;> rfl

theorem skipTail_of_not_hasTail (htail : ¬ HasTail s) : skipTail s = .ok s := by
  obtain ⟨hpoint, hletter⟩ := not_or.mp htail
  obtain ⟨hsmall, hgreat⟩ := not_or.mp hletter
  rw [skipTail_of_ne hpoint, skipScale_of_ne hsmall hgreat]

theorem follows_readTail (negative : Bool) (m : ℕ) : Follows (readTail negative m) skipTail where
  skip := by
    intro s rest numeral hread
    by_cases htail : HasTail s
    · rw [readTail_of_hasTail htail] at hread
      exact ((follows_readFloatTail negative m 0).map Numeral.float).skip hread
    · rw [readTail_of_not_hasTail htail] at hread
      rw [skipTail_of_not_hasTail htail, (Prod.mk.inj (Except.ok.inj hread)).2]
  append := by
    intro s rest more numeral hread hmore
    by_cases htail : HasTail s
    · rw [readTail_of_hasTail htail] at hread
      rw [readTail_of_hasTail ((hasTail_append hmore).mpr htail)]
      exact ((follows_readFloatTail negative m 0).map Numeral.float).append hread hmore
    · rw [readTail_of_not_hasTail htail] at hread
      obtain ⟨rfl, rfl⟩ := Prod.mk.inj (Except.ok.inj hread)
      rw [readTail_of_not_hasTail (mt (hasTail_append hmore).mp htail)]

theorem readLongTail_eq (negative : Bool) (m : ℕ) (s : Input) :
    readLongTail negative m s =
      (readFloatTail negative m (s.takeWhile isDigit).length (s.dropWhile isDigit)).map
        fun result => (Numeral.float result.1, result.2) := by
  unfold readLongTail
  dsimp only
  generalize s.dropWhile isDigit = left
  split
  next t =>
    rw [readFloatTail]
    cases readFraction negative m _ t <;> rfl
  next hpoint =>
    rw [readFloatTail_of_ne]
    · cases readScale negative m _ left <;> rfl
    · intro hhead
      obtain ⟨t, ht⟩ := List.head?_eq_some_iff.mp hhead
      exact hpoint t ht

theorem follows_readLongTail (negative : Bool) (m : ℕ) :
    Follows (readLongTail negative m) fun s => skipTail (s.dropWhile isDigit) where
  skip := by
    intro s rest numeral hread
    rw [readLongTail_eq] at hread
    exact ((follows_readFloatTail negative m _).map Numeral.float).skip hread
  append := by
    intro s rest more numeral hread hmore
    rw [readLongTail_eq] at hread ⊢
    rw [takeWhile_append_of_endsDigits hmore.endsDigits,
      dropWhile_append_of_endsDigits hmore.endsDigits]
    exact ((follows_readFloatTail negative m _).map Numeral.float).append hread hmore

/-! ### Literals -/

theorem readNumeral_zero_eq_ok {numeral : Numeral}
    (hread : readNumeral negative (0x30 :: s) = .ok (numeral, rest)) :
    EndsDigits s ∧ readTail negative 0 s = .ok (numeral, rest) := by
  cases s with
  | nil => exact ⟨fun _ hhead => absurd hhead (by simp), hread⟩
  | cons byte s =>
      by_cases hbyte : isDigit byte = true
      · exact absurd hread (by simp [readNumeral, hbyte])
      · rw [Bool.not_eq_true] at hbyte
        refine ⟨fun other hother => ?_, ?_⟩
        · rwa [← Option.some_inj.mp hother]
        · simpa [readNumeral, hbyte] using hread

theorem skipNumeral_zero (hs : EndsDigits s) : skipNumeral (0x30 :: s) = skipTail s := by
  cases s with
  | nil => rfl
  | cons byte s => simp only [skipNumeral, hs byte rfl, Bool.false_eq_true, if_false]

theorem skipNumeral_of_ne_zero {byte : UInt8} (hbyte : isDigit byte = true) (hne : byte ≠ 0x30)
    (s : Input) : skipNumeral (byte :: s) = skipTail ((byte :: s).dropWhile isDigit) := by
  rw [skipNumeral, if_pos hbyte, List.dropWhile_cons_of_pos hbyte]
  exact hne

/-- A numeral that is read begins with a digit. -/
theorem head_of_readNumeral {numeral : Numeral} (hread : readNumeral negative s = .ok (numeral, rest)) :
    ∃ byte t, s = byte :: t ∧ isDigit byte = true := by
  unfold readNumeral at hread
  split at hread
  next => exact absurd hread failAt_ne_ok
  next t => exact ⟨0x30, t, rfl, by decide⟩
  next byte t hzero =>
    split_ifs at hread with hbyte
    · exact ⟨byte, t, rfl, hbyte⟩
    · exact absurd hread failAt_ne_ok

theorem EndsDigits.digit?_append (hs : EndsDigits s) (hmore : Stops more) :
    ∀ byte, (s ++ more).head? = some byte → digit? byte = none := by
  intro byte hhead
  suffices hbyte : isDigit byte = false by simpa [isDigit] using hbyte
  cases s with
  | nil => exact (hmore byte hhead).1
  | cons first s => exact hs byte hhead

theorem follows_readNumeral (negative : Bool) : Follows (readNumeral negative) skipNumeral where
  skip := by
    intro s rest numeral hread
    obtain ⟨byte, t, rfl, hbyte⟩ := head_of_readNumeral hread
    by_cases hzero : byte = 0x30
    · subst hzero
      obtain ⟨hends, htail⟩ := readNumeral_zero_eq_ok hread
      rw [skipNumeral_zero hends]
      exact (follows_readTail negative 0).skip htail
    · rw [readNumeral_of_ne_zero negative hbyte hzero] at hread
      rw [skipNumeral_of_ne_zero hbyte hzero]
      split_ifs at hread with hfull
      · rw [← dropWhile_collectDigits significandLimit 0 0]
        exact (follows_readLongTail negative _).skip hread
      · rw [← collectDigits_rest (Bool.eq_false_iff.mpr hfull)]
        exact (follows_readTail negative _).skip hread
  append := by
    intro s rest more numeral hread hmore
    obtain ⟨byte, t, rfl, hbyte⟩ := head_of_readNumeral hread
    by_cases hzero : byte = 0x30
    · subst hzero
      obtain ⟨hends, htail⟩ := readNumeral_zero_eq_ok hread
      rw [List.cons_append, readNumeral_zero negative (hends.digit?_append hmore)]
      exact (follows_readTail negative 0).append htail hmore
    · rw [readNumeral_of_ne_zero negative hbyte hzero] at hread
      have hcollected := collectDigits_append hmore.endsDigits significandLimit 0 0 (byte :: t)
      rw [List.cons_append] at hcollected ⊢
      rw [readNumeral_of_ne_zero negative hbyte hzero, hcollected]
      split_ifs at hread ⊢ with hfull
      · exact (follows_readLongTail negative _).append hread hmore
      · exact (follows_readTail negative _).append hread hmore

end ServiceWatch.Json
