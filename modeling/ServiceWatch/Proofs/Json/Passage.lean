import ServiceWatch.Proofs.Basic
import ServiceWatch.Proofs.Json.Grammar

/-!
# What is passed over is a value

The reader that passes over a value accepts the phrases of the grammar and nothing else: the converse
of `Forms.skipValue`.  The small readers are taken one by one, each with what must have stood in
front of the rest that it leaves.  For the reader as a whole, `Remains` says what the containers that
are open still demand of the input: for each of them, items up to its closing bracket.  One step
asks for no more than the step after it (`finishes_of_skipStep`), and so a run that comes to its end
has a phrase behind it (`skipValue_eq_ok`).

A container is passed whatever follows it (`Bracket.Completes.skipValue`), since its closing bracket
tells where it ends.
-/

namespace ServiceWatch.Json

variable {s rest text gap head value items : Input} {bracket : Bracket} {opened outer : List Bracket}

/-! ### Failures -/

@[simp]
theorem failAt_ne_ok {α : Type} {fault : Fault} {result : α} : failAt fault s ≠ .ok result :=
  nofun

@[simp]
theorem failBehind_ne_ok {α : Type} {fault : Fault} {result : α} :
    failBehind fault s ≠ .ok result :=
  nofun

/-! ### Blanks and words -/

theorem exists_of_skipGap (hskip : skipGap s = rest) : ∃ gap, IsBlank gap ∧ s = gap ++ rest := by
  subst hskip
  exact ⟨s.takeWhile isGap, fun _ hbyte => List.mem_takeWhile_imp hbyte,
    List.takeWhile_append_dropWhile.symm⟩

theorem readWord_eq_ok {word : List UInt8} (hword : readWord word s = .ok rest) :
    s = word ++ rest := by
  induction word generalizing s with
  | nil =>
      obtain rfl : s = rest := by simpa [readWord] using hword
      rfl
  | cons expected word ih =>
      cases s with
      | nil => exact absurd hword (by simp [readWord])
      | cons byte s =>
          rw [readWord] at hword
          split_ifs at hword with hbyte
          · rw [hbyte, ih hword]
            rfl
          · exact absurd hword failAt_ne_ok

theorem readColon_eq_ok (hcolon : readColon s = .ok rest) :
    ∃ gap, IsBlank gap ∧ s = gap ++ 0x3A :: rest := by
  unfold readColon at hcolon
  split at hcolon
  next hskip =>
    obtain rfl := Except.ok.inj hcolon
    exact exists_of_skipGap hskip
  next => exact absurd hcolon failAt_ne_ok
  next => exact absurd hcolon failBehind_ne_ok

/-! ### Strings -/

/-- The input is an escape behind its backslash. -/
def IsEscape (escape : Input) : Prop := ∀ text, IsInside text → IsInside (0x5C :: (escape ++ text))

theorem readHex_eq_ok {unit : ℕ} (hhex : readHex s = .ok (unit, rest)) :
    ∃ a b c d, hexValue? a b c d = some unit ∧ s = a :: b :: c :: d :: rest := by
  unfold readHex at hhex
  split at hhex
  next a b c d s =>
    split at hhex
    next n hn =>
      simp only [Except.ok.injEq, Prod.mk.injEq] at hhex
      obtain ⟨rfl, rfl⟩ := hhex
      exact ⟨a, b, c, d, hn, rfl⟩
    next => exact absurd hhex failAt_ne_ok
  next => exact absurd hhex failAt_ne_ok

theorem isEscape_letter {letter : UInt8} (hletter : (letterEscape? letter).isSome) :
    IsEscape [letter] :=
  fun _ htext => .letter hletter htext

theorem isEscape_code {a b c d : UInt8} {unit : ℕ} (hunit : hexValue? a b c d = some unit) :
    IsEscape [0x75, a, b, c, d] :=
  fun _ htext => .code (by rw [hunit]; rfl) htext

theorem skipEscape_eq_ok (hescape : skipEscape s = .ok rest) :
    ∃ escape, IsEscape escape ∧ s = escape ++ rest := by
  cases s with
  | nil => exact absurd hescape (by simp [skipEscape])
  | cons byte s =>
      rw [skipEscape] at hescape
      split_ifs at hescape with hcode
      · obtain ⟨⟨unit, left⟩, hhex, hrest⟩ := bind_eq_ok_iff.mp hescape
        obtain rfl := Except.ok.inj hrest
        obtain ⟨a, b, c, d, hunit, rfl⟩ := readHex_eq_ok hhex
        exact ⟨_, isEscape_code hunit, by rw [hcode]; rfl⟩
      · split at hescape
        next letter hletter =>
          obtain rfl := Except.ok.inj hescape
          exact ⟨[byte], isEscape_letter (by rw [hletter]; rfl), rfl⟩
        next => exact absurd hescape failAt_ne_ok

theorem skipStringWith_eq_ok {fuel : ℕ} (hstring : skipStringWith fuel s = .ok rest) :
    ∃ text, IsInside text ∧ s = text ++ 0x22 :: rest := by
  induction fuel generalizing s with
  | zero => exact absurd hstring (by simp [skipStringWith])
  | succ fuel ih =>
      cases s with
      | nil => exact absurd hstring (by simp [skipStringWith])
      | cons byte s =>
          rw [skipStringWith] at hstring
          split_ifs at hstring with hquote hslash hcontrol
          · obtain rfl := Except.ok.inj hstring
            exact ⟨[], .nil, by rw [hquote]; rfl⟩
          · split at hstring
            next left hescape =>
              obtain ⟨escape, hvalid, rfl⟩ := skipEscape_eq_ok hescape
              obtain ⟨text, htext, rfl⟩ := ih hstring
              exact ⟨_, hvalid text htext, by simp [hslash]⟩
            next => exact absurd hstring (by simp)
          · exact absurd hstring failAt_ne_ok
          · obtain ⟨text, htext, rfl⟩ := ih hstring
            exact ⟨byte :: text, .byte hquote hslash hcontrol htext, rfl⟩

theorem skipString_eq_ok (hstring : skipString s = .ok rest) :
    ∃ text, IsInside text ∧ s = text ++ 0x22 :: rest :=
  skipStringWith_eq_ok hstring

/-! ### Numbers -/

theorem isDigits_cons {byte : UInt8} (hbyte : isDigit byte = true) (s : Input) :
    IsDigits (byte :: s.takeWhile isDigit) :=
  ⟨List.cons_ne_nil _ _, List.forall_mem_cons.mpr ⟨hbyte, fun _ hother =>
    List.mem_takeWhile_imp hother⟩⟩

theorem skipDigits_eq_ok (hdigits : skipDigits s = .ok rest) :
    ∃ digits, IsDigits digits ∧ s = digits ++ rest := by
  cases s with
  | nil => exact absurd hdigits (by simp [skipDigits])
  | cons byte s =>
      rw [skipDigits] at hdigits
      split_ifs at hdigits with hbyte
      · obtain rfl := Except.ok.inj hdigits
        exact ⟨_, isDigits_cons hbyte s, by simp⟩
      · exact absurd hdigits failAt_ne_ok

theorem skipExponent_eq_ok (hexponent : skipExponent s = .ok rest) :
    ∃ sign digits, (sign = [] ∨ sign = [0x2B] ∨ sign = [0x2D]) ∧ IsDigits digits ∧
      s = sign ++ digits ++ rest := by
  unfold skipExponent at hexponent
  split at hexponent
  next =>
    obtain ⟨digits, hdigits, rfl⟩ := skipDigits_eq_ok hexponent
    exact ⟨[0x2B], digits, by simp, hdigits, rfl⟩
  next =>
    obtain ⟨digits, hdigits, rfl⟩ := skipDigits_eq_ok hexponent
    exact ⟨[0x2D], digits, by simp, hdigits, rfl⟩
  next =>
    obtain ⟨digits, hdigits, rfl⟩ := skipDigits_eq_ok hexponent
    exact ⟨[], digits, by simp, hdigits, rfl⟩

/-- Passes over an exponent, if there is one. -/
def skipScale : Input → Except Failure Input
  | 0x65 :: s => skipExponent s
  | 0x45 :: s => skipExponent s
  | s => .ok s

theorem skipScale_eq_ok (hscale : skipScale s = .ok rest) :
    ∃ exponent, IsExponent exponent ∧ s = exponent ++ rest := by
  have hcons : ∀ {letter : UInt8} {s : Input}, letter = 0x65 ∨ letter = 0x45 →
      skipExponent s = .ok rest → ∃ exponent, IsExponent exponent ∧ letter :: s = exponent ++ rest := by
    intro letter s hletter hexponent
    obtain ⟨sign, digits, hsign, hdigits, rfl⟩ := skipExponent_eq_ok hexponent
    exact ⟨_, .cons hletter hsign hdigits, rfl⟩
  unfold skipScale at hscale
  split at hscale
  next => exact hcons (Or.inl rfl) hscale
  next => exact hcons (Or.inr rfl) hscale
  next => exact ⟨[], .nil, by rw [Except.ok.inj hscale]; rfl⟩

theorem skipTail_point (s : Input) : skipTail (0x2E :: s) = skipDigits s >>= skipScale := rfl

theorem skipTail_of_ne (hpoint : s.head? ≠ some 0x2E) : skipTail s = skipScale s := by
  unfold skipTail
  split
  next => exact absurd rfl hpoint
  next => rfl
  next => rfl
  next hsmall hgreat =>
    unfold skipScale
    split
    next => exact absurd rfl (hsmall _)
    next => exact absurd rfl (hgreat _)
    next => rfl

theorem skipTail_eq_ok (htail : skipTail s = .ok rest) :
    ∃ fraction exponent, IsFraction fraction ∧ IsExponent exponent ∧
      s = fraction ++ (exponent ++ rest) := by
  by_cases hpoint : s.head? = some 0x2E
  · obtain ⟨s, rfl⟩ := List.head?_eq_some_iff.mp hpoint
    rw [skipTail_point] at htail
    obtain ⟨left, hdigits, hscale⟩ := bind_eq_ok_iff.mp htail
    obtain ⟨digits, hvalid, rfl⟩ := skipDigits_eq_ok hdigits
    obtain ⟨exponent, hexponent, rfl⟩ := skipScale_eq_ok hscale
    exact ⟨_, exponent, .cons hvalid, hexponent, rfl⟩
  · rw [skipTail_of_ne hpoint] at htail
    obtain ⟨exponent, hexponent, rfl⟩ := skipScale_eq_ok htail
    exact ⟨[], exponent, .nil, hexponent, rfl⟩

theorem skipNumeral_eq_ok (hnumeral : skipNumeral s = .ok rest) :
    ∃ text, IsMagnitude text ∧ s = text ++ rest := by
  have hmagnitude : ∀ {whole left : Input},
      (whole = [0x30] ∨ IsDigits whole ∧ whole.head? ≠ some 0x30) → skipTail left = .ok rest →
        ∃ text, IsMagnitude text ∧ whole ++ left = text ++ rest := by
    intro whole left hwhole htail
    obtain ⟨fraction, exponent, hfraction, hexponent, rfl⟩ := skipTail_eq_ok htail
    exact ⟨_, .intro hwhole hfraction hexponent, by simp only [List.append_assoc]⟩
  unfold skipNumeral at hnumeral
  split at hnumeral
  next s =>
    cases s with
    | nil => exact hmagnitude (Or.inl rfl) hnumeral
    | cons byte s =>
        simp only at hnumeral
        split_ifs at hnumeral
        · exact absurd hnumeral failAt_ne_ok
        · exact hmagnitude (Or.inl rfl) hnumeral
  next byte s hzero =>
    split_ifs at hnumeral with hbyte
    · have hhead : (byte :: s.takeWhile isDigit).head? ≠ some 0x30 := fun heq =>
        hzero (Option.some_inj.mp heq)
      obtain ⟨text, htext, hsplit⟩ := hmagnitude (Or.inr ⟨isDigits_cons hbyte s, hhead⟩) hnumeral
      refine ⟨text, htext, ?_⟩
      rw [← hsplit, List.cons_append, List.takeWhile_append_dropWhile]
    · exact absurd hnumeral failAt_ne_ok
  next => exact absurd hnumeral failAt_ne_ok

/-! ### What containers demand -/

/-- What stands in front of an item: blanks, and behind another item a comma between them. -/
inductive IsFront : Bool → Input → Prop where
  | first {gap : Input} (hgap : IsBlank gap) : IsFront true gap
  | next {before behind : Input} (hbefore : IsBlank before) (hbehind : IsBlank behind) :
      IsFront false (before ++ 0x2C :: behind)

/-- The items complete a container, either from its opening bracket on or behind another item. -/
def Bracket.Completes (bracket : Bracket) : (first : Bool) → Input → Prop
  | true, items =>
    (∃ gap, IsBlank gap ∧ items = gap ++ [bracket.closer]) ∨ Forms (.items bracket) items
  | false, items =>
    ∀ head value, IsHead bracket head → Forms .value value →
      Forms (.items bracket) (head ++ (value ++ items))

theorem Bracket.completes_closer (first : Bool) (hgap : IsBlank gap) :
    bracket.Completes first (gap ++ [bracket.closer]) := by
  cases first with
  | true => exact Or.inl ⟨gap, hgap, rfl⟩
  | false => exact fun _ _ hhead hvalue => .last hhead hvalue hgap

/-- Items that complete a container still do so with another item in front of them. -/
theorem Bracket.Completes.item {first : Bool} {front : Input}
    (hitems : bracket.Completes false items) (hfront : IsFront first front)
    (hhead : IsHead bracket head) (hvalue : Forms .value value) :
    bracket.Completes first (front ++ (head ++ (value ++ items))) := by
  cases hfront with
  | first hgap =>
      rw [← List.append_assoc]
      exact Or.inr (hitems _ _ (hhead.gap_append hgap) hvalue)
  | @next before behind hbefore hbehind =>
      intro other former hother hformer
      have hrest := hitems _ _ (hhead.gap_append hbehind) hvalue
      have hmore := Forms.more hother hformer hbefore hrest
      simpa only [List.append_assoc, List.cons_append] using hmore

theorem Bracket.Completes.forms (hitems : bracket.Completes true items) :
    Forms .value (bracket.opener :: items) := by
  rcases hitems with ⟨gap, hgap, rfl⟩ | hitems
  · exact .empty hgap
  · exact .container hitems

/-- The steps out of a container that is completed are fewer than twice the bytes they pass. -/
theorem Bracket.Completes.leads (hitems : bracket.Completes true items) :
    ∃ steps, steps ≤ 2 * items.length ∧ ∀ opened rest,
      Leads steps (bracket :: opened, .first, items ++ rest) (opened, .next, rest) := by
  rcases hitems with ⟨gap, hgap, rfl⟩ | hitems
  · refine ⟨1, ?_, fun opened rest => ?_⟩
    · simp only [List.length_append, List.length_singleton]
      omega
    · rw [List.append_assoc, List.singleton_append]
      exact leads_closer .first (by simp) hgap rest
  · obtain ⟨steps, hsteps, hleads⟩ := hitems.leads
    exact ⟨steps, hsteps, fun opened rest => (hleads opened rest).1⟩

/-- The input completes the open containers, innermost first, and `rest` follows them. -/
def Remains : List Bracket → (first : Bool) → Input → Input → Prop
  | [], _, s, rest => s = rest
  | bracket :: outer, first, s, rest =>
    ∃ items left, bracket.Completes first items ∧ s = items ++ left ∧ Remains outer false left rest

/-- The input completes the place where the reader stands, and `rest` follows. -/
def Finishes (opened : List Bracket) : Expectation → Input → Input → Prop
  | .value, s, rest =>
    ∃ gap value left, IsBlank gap ∧ Forms .value value ∧ s = gap ++ (value ++ left) ∧
      Remains opened false left rest
  | .first, s, rest => Remains opened true s rest
  | .next, s, rest => Remains opened false s rest

/-! ### Steps -/

/-- What `skipStart` passes, behind blanks: a value, or the opening bracket of a container. -/
def Starts (found : Option Bracket) (s rest : Input) : Prop :=
  match found with
  | none => ∃ text, Forms .value text ∧ s = text ++ rest
  | some bracket => s = bracket.opener :: rest

theorem skipStart_eq_ok {found : Option Bracket} (hstart : skipStart s = .ok (found, rest)) :
    ∃ gap left, IsBlank gap ∧ s = gap ++ left ∧ Starts found left rest := by
  have hscalar : ∀ {read : Except Failure Input},
      (read >>= fun s => .ok (none, s)) = .ok (found, rest) → found = none ∧ read = .ok rest := by
    intro read hread
    obtain ⟨left, hleft, heq⟩ := bind_eq_ok_iff.mp hread
    obtain ⟨rfl, rfl⟩ := Prod.mk.inj (Except.ok.inj heq)
    exact ⟨rfl, hleft⟩
  unfold skipStart at hstart
  split at hstart
  next => exact absurd hstart failAt_ne_ok
  next byte left hskip =>
    obtain ⟨gap, hgap, rfl⟩ := exists_of_skipGap hskip
    refine ⟨gap, _, hgap, rfl, ?_⟩
    split_ifs at hstart with hnull htrue hfalse hminus hdigit hquote hsquare hcurly
    · obtain ⟨rfl, hword⟩ := hscalar hstart
      exact ⟨_, .null, by rw [hnull, readWord_eq_ok hword]; rfl⟩
    · obtain ⟨rfl, hword⟩ := hscalar hstart
      exact ⟨_, .true, by rw [htrue, readWord_eq_ok hword]; rfl⟩
    · obtain ⟨rfl, hword⟩ := hscalar hstart
      exact ⟨_, .false, by rw [hfalse, readWord_eq_ok hword]; rfl⟩
    · obtain ⟨rfl, hnumeral⟩ := hscalar hstart
      obtain ⟨text, htext, rfl⟩ := skipNumeral_eq_ok hnumeral
      exact ⟨_, .negative htext, by rw [hminus]; rfl⟩
    · obtain ⟨rfl, hnumeral⟩ := hscalar hstart
      obtain ⟨text, htext, heq⟩ := skipNumeral_eq_ok hnumeral
      exact ⟨text, .number htext, heq⟩
    · obtain ⟨rfl, hstring⟩ := hscalar hstart
      obtain ⟨text, htext, rfl⟩ := skipString_eq_ok hstring
      exact ⟨_, .string htext, by simp [hquote]⟩
    · obtain ⟨rfl, rfl⟩ := Prod.mk.inj (Except.ok.inj hstart)
      exact congrArg (· :: left) hsquare
    · obtain ⟨rfl, rfl⟩ := Prod.mk.inj (Except.ok.inj hstart)
      exact congrArg (· :: left) hcurly
    · exact absurd hstart failAt_ne_ok

theorem openName_eq_ok (hopen : openName s = .ok rest) :
    ∃ gap, IsBlank gap ∧ s = gap ++ 0x22 :: rest := by
  unfold openName at hopen
  split at hopen
  next hskip =>
    obtain rfl := Except.ok.inj hopen
    exact exists_of_skipGap hskip
  next => exact absurd hopen failAt_ne_ok
  next => exact absurd hopen failAt_ne_ok

theorem skipToValue_eq_ok (hskip : skipToValue bracket s = .ok rest) :
    ∃ head, IsHead bracket head ∧ s = head ++ rest := by
  cases bracket with
  | square => exact ⟨[], .element isBlank_nil, Except.ok.inj hskip⟩
  | curly =>
      obtain ⟨inside, hopen, hname⟩ := bind_eq_ok_iff.mp hskip
      obtain ⟨behind, hstring, hcolon⟩ := bind_eq_ok_iff.mp hname
      obtain ⟨gap, hgap, rfl⟩ := openName_eq_ok hopen
      obtain ⟨text, htext, rfl⟩ := skipString_eq_ok hstring
      obtain ⟨before, hbefore, rfl⟩ := readColon_eq_ok hcolon
      exact ⟨_, .member hgap htext hbefore isBlank_nil, by simp⟩

/-- An item is completed by its value and by what completes the container behind it. -/
theorem remains_of_finishes {first : Bool} {front : Input} (hfront : IsFront first front)
    (hhead : IsHead bracket head) (hrest : Finishes (bracket :: opened) .value s rest) :
    Remains (bracket :: opened) first (front ++ (head ++ s)) rest := by
  obtain ⟨gap, value, left, hgap, hvalue, rfl, items, last, hitems, rfl, hlast⟩ := hrest
  refine ⟨_, last, hitems.item hfront (hhead.append_gap hgap) hvalue, ?_, hlast⟩
  simp only [List.append_assoc]

theorem remains_of_closer {first : Bool} (hgap : IsBlank gap)
    (hrest : Remains opened false s rest) :
    Remains (bracket :: opened) first (gap ++ bracket.closer :: s) rest :=
  ⟨_, s, bracket.completes_closer first hgap, by simp, hrest⟩

/-- What is demanded behind a step, be it the last one or not. -/
def Continues (found : Option (List Bracket × Expectation)) (s rest : Input) : Prop :=
  match found with
  | some (opened, expectation) => Finishes opened expectation s rest
  | none => s = rest

theorem finishes_of_skipStart {found : Option Bracket} {left : Input}
    (hstart : skipStart s = .ok (found, left))
    (hrest : match found with
      | some bracket => Finishes (bracket :: opened) .first left rest
      | none => Finishes opened .next left rest) : Finishes opened .value s rest := by
  obtain ⟨gap, behind, hgap, rfl, hstarts⟩ := skipStart_eq_ok hstart
  cases found with
  | none =>
      obtain ⟨text, htext, rfl⟩ := hstarts
      exact ⟨gap, text, left, hgap, htext, rfl, hrest⟩
  | some bracket =>
      obtain rfl : behind = bracket.opener :: left := hstarts
      obtain ⟨items, last, hitems, rfl, hlast⟩ := hrest
      exact ⟨gap, bracket.opener :: items, last, hgap, hitems.forms, rfl, hlast⟩

/-- **One step demands no more** than what is demanded behind it. -/
theorem finishes_of_skipStep {expectation : Expectation} {left : Input}
    {found : Option (List Bracket × Expectation)}
    (hstep : skipStep opened expectation s = .ok (found, left))
    (hrest : Continues found left rest) : Finishes opened expectation s rest := by
  unfold skipStep at hstep
  split at hstep
  next opened =>
    obtain ⟨⟨opener, behind⟩, hstart, hopener⟩ := bind_eq_ok_iff.mp hstep
    refine finishes_of_skipStart hstart ?_
    cases opener with
    | none =>
        obtain ⟨rfl, rfl⟩ := Prod.mk.inj (Except.ok.inj hopener)
        exact hrest
    | some bracket =>
        obtain ⟨rfl, rfl⟩ := Prod.mk.inj (Except.ok.inj hopener)
        exact hrest
  next hvalue =>
    obtain ⟨rfl, rfl⟩ := Prod.mk.inj (Except.ok.inj hstep)
    cases expectation with
    | value => exact absurd rfl hvalue
    | first => exact hrest
    | next => exact hrest
  next bracket outer hvalue =>
    split at hstep
    next => exact absurd hstep failAt_ne_ok
    next byte behind hskip =>
      obtain ⟨gap, hgap, rfl⟩ := exists_of_skipGap hskip
      split_ifs at hstep with hcloser hfirst hcomma
      · obtain ⟨rfl, rfl⟩ := Prod.mk.inj (Except.ok.inj hstep)
        subst hcloser
        cases expectation with
        | value => exact absurd rfl hvalue
        | first => exact remains_of_closer hgap hrest
        | next => exact remains_of_closer hgap hrest
      · obtain ⟨value, hto, hnext⟩ := bind_eq_ok_iff.mp hstep
        obtain ⟨rfl, rfl⟩ := Prod.mk.inj (Except.ok.inj hnext)
        obtain ⟨head, hhead, heq⟩ := skipToValue_eq_ok hto
        rw [hfirst, heq]
        exact remains_of_finishes (.first hgap) hhead hrest
      · obtain ⟨value, hto, hnext⟩ := bind_eq_ok_iff.mp hstep
        obtain ⟨rfl, rfl⟩ := Prod.mk.inj (Except.ok.inj hnext)
        obtain ⟨head, hhead, rfl⟩ := skipToValue_eq_ok hto
        cases expectation with
        | value => exact absurd rfl hvalue
        | first => exact absurd rfl hfirst
        | next =>
            have hremains := remains_of_finishes (.next hgap isBlank_nil) hhead hrest
            simp only [List.append_assoc, List.cons_append, List.nil_append] at hremains
            rw [hcomma]
            exact hremains
      · exact absurd hstep failAt_ne_ok

theorem skipWith_eq_ok {fuel : ℕ} {expectation : Expectation}
    (hskip : skipWith fuel opened expectation s = .ok rest) : Finishes opened expectation s rest := by
  induction fuel generalizing opened expectation s with
  | zero => exact absurd hskip (by simp [skipWith])
  | succ fuel ih =>
      rw [skipWith] at hskip
      split at hskip
      next => exact absurd hskip (by simp)
      next hstep => exact finishes_of_skipStep hstep (Except.ok.inj hskip)
      next hstep => exact finishes_of_skipStep hstep (ih hskip)

/-- **What is passed over is a value**, with blanks in front of it. -/
theorem skipValue_eq_ok (hskip : skipValue s = .ok rest) :
    ∃ gap text, IsBlank gap ∧ Forms .value text ∧ s = gap ++ (text ++ rest) := by
  obtain ⟨gap, text, left, hgap, htext, rfl, rfl⟩ := skipWith_eq_ok hskip
  exact ⟨gap, text, hgap, htext, rfl⟩

/-! ### Containers -/

/-- **A container is passed whatever follows it.** -/
theorem Bracket.Completes.skipValue (hitems : bracket.Completes true items) (hgap : IsBlank gap)
    (rest : Input) : skipValue (gap ++ bracket.opener :: (items ++ rest)) = .ok rest := by
  obtain ⟨steps, hsteps, hleads⟩ := hitems.leads
  have hall := (leads_opener hgap (items ++ rest)).trans (hleads [] rest)
  -- one unit of fuel is left to notice that no container is open
  obtain ⟨fuel, hfuel⟩ : ∃ fuel,
      2 * (gap ++ bracket.opener :: (items ++ rest)).length + 2 = fuel + 1 + (1 + steps) := by
    refine ⟨2 * (gap ++ bracket.opener :: (items ++ rest)).length - steps, ?_⟩
    simp only [List.length_append, List.length_cons]
    omega
  rw [Json.skipValue, hfuel, hall (fuel + 1)]
  rfl

end ServiceWatch.Json
