import ServiceWatch.Proofs.Json.Layout

/-!
# Passing over a value of any form

`Forms` is the grammar of values, with blanks wherever a document may have them.  It has two kinds of
phrases: values, and what stands in a container behind its opening bracket.  The reader that passes
over a value takes steps from one place to another (`Leads`), where a place is the containers that
are open, what is looked for, and what is left of the document.  By induction on the grammar the
steps lead over every value and out of every container, and they are fewer than twice the bytes that
they pass (`Forms.leads`); so the fuel suffices (`Forms.skipValue`).
-/

namespace ServiceWatch.Json

variable {text s rest gap : Input} {bracket : Bracket} {opened : List Bracket}

/-! ### Strings -/

/-- What may stand between the quotation marks of a string, be it text or not. -/
inductive IsInside : Input → Prop where
  | nil : IsInside []
  | byte {byte : UInt8} {text : Input} (hquote : byte ≠ 0x22) (hslash : byte ≠ 0x5C)
      (hcontrol : ¬ byte < 0x20) (htext : IsInside text) : IsInside (byte :: text)
  | letter {letter : UInt8} {text : Input} (hletter : (letterEscape? letter).isSome)
      (htext : IsInside text) : IsInside (0x5C :: letter :: text)
  | code {a b c d : UInt8} {text : Input} (hcode : (hexValue? a b c d).isSome)
      (htext : IsInside text) : IsInside (0x5C :: 0x75 :: a :: b :: c :: d :: text)

theorem Spells.isInside {bytes : List UInt8} (htext : Spells text bytes) : IsInside text := by
  induction htext with
  | nil => exact .nil
  | byte hquote hslash hcontrol _ ih => exact .byte hquote hslash hcontrol ih
  | letter hletter _ ih => exact .letter (by rw [hletter]; rfl) ih
  | code hunit _ _ ih => exact .code (by rw [hunit]; rfl) ih
  | pair hleading _ htrailing _ _ ih =>
      exact .code (by rw [hleading]; rfl) (.code (by rw [htrailing]; rfl) ih)

theorem skipEscape_letter {letter : UInt8} (hletter : (letterEscape? letter).isSome) (s : Input) :
    skipEscape (letter :: s) = .ok s := by
  obtain ⟨byte, hbyte⟩ := Option.isSome_iff_exists.mp hletter
  have hcode : letter ≠ 0x75 := by
    rintro rfl
    exact absurd hletter (by decide)
  rw [skipEscape, if_neg hcode, hbyte]

theorem skipEscape_code {a b c d : UInt8} (hcode : (hexValue? a b c d).isSome) (s : Input) :
    skipEscape (0x75 :: a :: b :: c :: d :: s) = .ok s := by
  obtain ⟨unit, hunit⟩ := Option.isSome_iff_exists.mp hcode
  rw [skipEscape, if_pos rfl, readHex, hunit]
  rfl

theorem skipStringWith_isInside (htext : IsInside text) {fuel : ℕ} (hfuel : text.length < fuel)
    (rest : Input) : skipStringWith fuel (text ++ 0x22 :: rest) = .ok rest := by
  induction htext generalizing fuel with
  | nil =>
      obtain ⟨fuel, rfl⟩ := Nat.exists_eq_succ_of_ne_zero (Nat.pos_iff_ne_zero.mp hfuel)
      rfl
  | byte hquote hslash hcontrol _ ih =>
      obtain ⟨fuel, rfl⟩ := Nat.exists_eq_succ_of_ne_zero (by omega : fuel ≠ 0)
      rw [List.cons_append, skipStringWith, if_neg hquote, if_neg hslash, if_neg hcontrol]
      exact ih (by simpa using hfuel)
  | letter hletter _ ih =>
      obtain ⟨fuel, rfl⟩ := Nat.exists_eq_succ_of_ne_zero (by omega : fuel ≠ 0)
      simp only [List.length_cons] at hfuel
      rw [List.cons_append, List.cons_append, skipStringWith, if_neg (by decide), if_pos rfl,
        skipEscape_letter hletter]
      exact ih (by omega)
  | code hcode _ ih =>
      obtain ⟨fuel, rfl⟩ := Nat.exists_eq_succ_of_ne_zero (by omega : fuel ≠ 0)
      simp only [List.length_cons] at hfuel
      simp only [List.cons_append]
      rw [skipStringWith, if_neg (by decide), if_pos rfl, skipEscape_code hcode]
      exact ih (by omega)

theorem skipString_isInside (htext : IsInside text) (rest : Input) :
    skipString (text ++ 0x22 :: rest) = .ok rest := by
  refine skipStringWith_isInside htext ?_ rest
  rw [List.length_append]
  omega

/-! ### Numbers -/

/-- Digits, of which there is at least one. -/
def IsDigits (digits : Input) : Prop :=
  digits ≠ [] ∧ ∀ byte ∈ digits, isDigit byte = true

/-- An exponent, if there is one. -/
inductive IsExponent : Input → Prop where
  | nil : IsExponent []
  | cons {letter : UInt8} {sign digits : Input} (hletter : letter = 0x65 ∨ letter = 0x45)
      (hsign : sign = [] ∨ sign = [0x2B] ∨ sign = [0x2D]) (hdigits : IsDigits digits) :
      IsExponent (letter :: (sign ++ digits))

/-- A fraction, if there is one. -/
inductive IsFraction : Input → Prop where
  | nil : IsFraction []
  | cons {digits : Input} (hdigits : IsDigits digits) : IsFraction (0x2E :: digits)

/-- A number without its sign. -/
inductive IsMagnitude : Input → Prop where
  | intro {whole fraction exponent : Input}
      (hwhole : whole = [0x30] ∨ IsDigits whole ∧ whole.head? ≠ some 0x30)
      (hfraction : IsFraction fraction) (hexponent : IsExponent exponent) :
      IsMagnitude (whole ++ (fraction ++ exponent))

/-- The input does not go on with a digit. -/
def EndsDigits (s : Input) : Prop := ∀ byte, s.head? = some byte → isDigit byte = false

theorem Stops.endsDigits (hrest : Stops rest) : EndsDigits rest :=
  fun byte hbyte => (hrest byte hbyte).1

theorem dropWhile_digits {digits : Input} (hdigits : ∀ byte ∈ digits, isDigit byte = true)
    (hs : EndsDigits s) : (digits ++ s).dropWhile isDigit = s := by
  rw [List.dropWhile_append_of_pos hdigits]
  cases s with
  | nil => rfl
  | cons byte s => rw [List.dropWhile_cons, hs byte rfl]; rfl

theorem skipDigits_append {digits : Input} (hdigits : IsDigits digits) (hs : EndsDigits s) :
    skipDigits (digits ++ s) = .ok s := by
  obtain ⟨hne, hall⟩ := hdigits
  cases digits with
  | nil => exact absurd rfl hne
  | cons byte digits =>
      rw [List.cons_append, skipDigits, if_pos (hall byte List.mem_cons_self),
        dropWhile_digits (fun other hother => hall other (List.mem_cons_of_mem byte hother)) hs]

theorem IsDigits.head {digits : Input} (hdigits : IsDigits digits) :
    ∃ byte tail, digits = byte :: tail ∧ isDigit byte = true := by
  obtain ⟨hne, hall⟩ := hdigits
  cases digits with
  | nil => exact absurd rfl hne
  | cons byte tail => exact ⟨byte, tail, rfl, hall byte List.mem_cons_self⟩

theorem skipExponent_append {sign digits : Input}
    (hsign : sign = [] ∨ sign = [0x2B] ∨ sign = [0x2D]) (hdigits : IsDigits digits)
    (hs : EndsDigits s) : skipExponent (sign ++ digits ++ s) = .ok s := by
  have hskip := skipDigits_append hdigits hs
  rcases hsign with rfl | rfl | rfl
  · obtain ⟨byte, tail, rfl, hbyte⟩ := hdigits.head
    rw [List.nil_append, List.cons_append, skipExponent]
    · exact hskip
    · intro _ heq
      exact ne_of_isDigit hbyte (by decide) (List.cons_eq_cons.mp heq).1
    · intro _ heq
      exact ne_of_isDigit hbyte (by decide) (List.cons_eq_cons.mp heq).1
  · exact hskip
  · exact hskip

theorem IsExponent.endsDigits {exponent : Input} (hexponent : IsExponent exponent)
    (hrest : Stops rest) : EndsDigits (exponent ++ rest) := by
  cases hexponent with
  | nil => exact hrest.endsDigits
  | cons hletter hsign hdigits =>
      rintro byte hbyte
      obtain rfl := Option.some_inj.mp hbyte
      rcases hletter with rfl | rfl <;> decide

theorem IsFraction.endsDigits {fraction : Input} (hfraction : IsFraction fraction)
    (hs : EndsDigits s) : EndsDigits (fraction ++ s) := by
  cases hfraction with
  | nil => exact hs
  | cons hdigits =>
      rintro byte hbyte
      obtain rfl := Option.some_inj.mp hbyte
      decide

/-- Behind the integer digits, the fraction and the exponent are passed over. -/
theorem skipTail_append {fraction exponent : Input} (hfraction : IsFraction fraction)
    (hexponent : IsExponent exponent) (hrest : Stops rest) :
    skipTail (fraction ++ (exponent ++ rest)) = .ok rest := by
  have hends := hexponent.endsDigits hrest
  cases hexponent with
  | nil =>
      rw [List.nil_append] at hends ⊢
      cases hfraction with
      | nil =>
          cases rest with
          | nil => rfl
          | cons byte rest =>
              obtain ⟨-, hpoint, hsmall, hgreat⟩ := hrest byte rfl
              simp [skipTail, hpoint, hsmall, hgreat]
      | cons hdigits =>
          rw [List.cons_append, skipTail, skipDigits_append hdigits hends]
          cases rest with
          | nil => rfl
          | cons byte rest =>
              obtain ⟨-, -, hsmall, hgreat⟩ := hrest byte rfl
              simp [bind, Except.bind, hsmall, hgreat]
  | cons hletter hsign hdigits =>
      have hskip := skipExponent_append hsign hdigits hrest.endsDigits
      cases hfraction with
      | nil => rcases hletter with rfl | rfl <;> exact hskip
      | cons hfraction =>
          rw [List.cons_append, skipTail, skipDigits_append hfraction hends]
          rcases hletter with rfl | rfl <;> exact hskip

theorem IsMagnitude.skipNumeral {text : Input} (htext : IsMagnitude text) (hrest : Stops rest) :
    skipNumeral (text ++ rest) = .ok rest := by
  obtain @⟨whole, fraction, exponent, hwhole, hfraction, hexponent⟩ := htext
  have htail := skipTail_append hfraction hexponent hrest
  have hends := hfraction.endsDigits (hexponent.endsDigits hrest)
  rw [List.append_assoc, List.append_assoc]
  rcases hwhole with rfl | ⟨hdigits, hzero⟩
  · rw [List.singleton_append]
    cases hs : fraction ++ (exponent ++ rest) with
    | nil =>
        rw [hs] at htail
        exact htail
    | cons byte s =>
        rw [hs] at htail hends
        have hbyte := hends byte rfl
        simp only [Json.skipNumeral, hbyte, Bool.false_eq_true, if_false, htail]
  · obtain ⟨byte, tail, rfl, hbyte⟩ := hdigits.head
    have htailDigits : ∀ other ∈ tail, isDigit other = true := fun other hother =>
      hdigits.2 other (List.mem_cons_of_mem byte hother)
    have hnotZero : byte ≠ 0x30 := fun heq => hzero (congrArg some heq)
    rw [List.cons_append, Json.skipNumeral]
    · rw [if_pos hbyte, dropWhile_digits htailDigits hends, htail]
    · exact hnotZero

/-! ### The grammar -/

/-- What stands in front of the value of an item: blanks in a list, and in an object a name and its
colon. -/
inductive IsHead : Bracket → Input → Prop where
  | element {gap : Input} (hgap : IsBlank gap) : IsHead .square gap
  | member {gap inside before behind : Input} (hgap : IsBlank gap) (hinside : IsInside inside)
      (hbefore : IsBlank before) (hbehind : IsBlank behind) :
      IsHead .curly (gap ++ 0x22 :: (inside ++ 0x22 :: (before ++ 0x3A :: behind)))

theorem IsHead.gap_append {head : Input} (hgap : IsBlank gap) (hhead : IsHead bracket head) :
    IsHead bracket (gap ++ head) := by
  cases hhead with
  | element hhead => exact .element (hgap.append hhead)
  | member hfront hinside hbefore hbehind =>
      rw [← List.append_assoc]
      exact .member (hgap.append hfront) hinside hbefore hbehind

theorem IsHead.append_gap {head : Input} (hhead : IsHead bracket head) (hgap : IsBlank gap) :
    IsHead bracket (head ++ gap) := by
  cases hhead with
  | element hhead => exact .element (hhead.append hgap)
  | member hfront hinside hbefore hbehind =>
      simp only [List.append_assoc, List.cons_append]
      exact .member hfront hinside hbefore (hbehind.append hgap)

/-- The byte that opens a container. -/
def Bracket.opener : Bracket → UInt8
  | .square => 0x5B
  | .curly => 0x7B

/-- A kind of phrase: a value, or the items of a container up to its closing bracket. -/
inductive Phrase where
  | value
  | items (bracket : Bracket)

/-- The input is a phrase of this kind. -/
inductive Forms : Phrase → Input → Prop where
  | null : Forms .value [0x6E, 0x75, 0x6C, 0x6C]
  | true : Forms .value [0x74, 0x72, 0x75, 0x65]
  | false : Forms .value [0x66, 0x61, 0x6C, 0x73, 0x65]
  | number {text : Input} (htext : IsMagnitude text) : Forms .value text
  | negative {text : Input} (htext : IsMagnitude text) : Forms .value (0x2D :: text)
  | string {text : Input} (htext : IsInside text) : Forms .value (0x22 :: (text ++ [0x22]))
  | empty {bracket : Bracket} {gap : Input} (hgap : IsBlank gap) :
      Forms .value (bracket.opener :: (gap ++ [bracket.closer]))
  | container {bracket : Bracket} {items : Input} (hitems : Forms (.items bracket) items) :
      Forms .value (bracket.opener :: items)
  | last {bracket : Bracket} {head value gap : Input} (hhead : IsHead bracket head)
      (hvalue : Forms .value value) (hgap : IsBlank gap) :
      Forms (.items bracket) (head ++ (value ++ (gap ++ [bracket.closer])))
  | more {bracket : Bracket} {head value gap items : Input} (hhead : IsHead bracket head)
      (hvalue : Forms .value value) (hgap : IsBlank gap) (hitems : Forms (.items bracket) items) :
      Forms (.items bracket) (head ++ (value ++ (gap ++ 0x2C :: items)))

theorem IsMagnitude.head (htext : IsMagnitude text) :
    ∃ byte tail, text = byte :: tail ∧ isDigit byte = true := by
  obtain ⟨rfl | ⟨hdigits, -⟩, -, -⟩ := htext
  · exact ⟨_, _, rfl, by decide⟩
  · obtain ⟨byte, tail, rfl, hbyte⟩ := hdigits.head
    exact ⟨byte, _, rfl, hbyte⟩

theorem Forms.beginsValue (htext : Forms .value text) : BeginsValue text := by
  cases htext with
  | number htext =>
      obtain ⟨byte, tail, rfl, hbyte⟩ := htext.head
      exact ⟨byte, tail, rfl, (isGap_of_isDigit hbyte).1, ne_of_isDigit hbyte (by decide)⟩
  | empty hgap => exact ⟨_, _, rfl, by cases ‹Bracket› <;> decide, by cases ‹Bracket› <;> decide⟩
  | container hitems =>
      exact ⟨_, _, rfl, by cases ‹Bracket› <;> decide, by cases ‹Bracket› <;> decide⟩
  | _ => exact ⟨_, _, rfl, by decide, by decide⟩

/-! ### Steps -/

/-- Where the reader stands: the containers that are open, what it looks for, and the rest of the
document. -/
abbrev Place := List Bracket × Expectation × Input

/-- So many steps lead the reader from one place to another. -/
def Leads (steps : ℕ) (before after : Place) : Prop :=
  ∀ fuel, skipWith (fuel + steps) before.1 before.2.1 before.2.2 =
    skipWith fuel after.1 after.2.1 after.2.2

variable {before between after : Place} {first second : ℕ}

theorem Leads.trans (hfirst : Leads first before between) (hsecond : Leads second between after) :
    Leads (first + second) before after := by
  intro fuel
  rw [Nat.add_comm first, ← Nat.add_assoc, hfirst, hsecond]

theorem leads_of_skipStep
    (hstep : skipStep before.1 before.2.1 before.2.2 = .ok (some (after.1, after.2.1), after.2.2)) :
    Leads 1 before after := by
  intro fuel
  rw [skipWith, hstep]

/-- A value that is no container takes one step. -/
theorem leads_of_skipStart (hgap : IsBlank gap)
    (hstart : skipStart (text ++ rest) = .ok (none, rest)) :
    Leads 1 (opened, .value, gap ++ (text ++ rest)) (opened, .next, rest) := by
  have hskip : skipStart (gap ++ (text ++ rest)) = .ok (none, rest) := by
    rw [← hstart]
    unfold skipStart
    rw [skipGap_append hgap]
  refine leads_of_skipStep ?_
  simp only [skipStep, hskip, bind, Except.bind]

/-- A container is opened. -/
theorem leads_opener (hgap : IsBlank gap) (s : Input) :
    Leads 1 (opened, .value, gap ++ bracket.opener :: s) (bracket :: opened, .first, s) := by
  refine leads_of_skipStep ?_
  have hopener : skipGap (gap ++ bracket.opener :: s) = bracket.opener :: s := by
    rw [skipGap_append hgap, skipGap_of_not_isGap (by cases bracket <;> decide)]
  simp only [skipStep, skipStart, hopener]
  cases bracket <;> rfl

/-- The innermost container is closed. -/
theorem leads_closer (expectation : Expectation) (hnot : expectation ≠ .value) (hgap : IsBlank gap)
    (s : Input) :
    Leads 1 (bracket :: opened, expectation, gap ++ bracket.closer :: s) (opened, .next, s) := by
  refine leads_of_skipStep ?_
  have hcloser : skipGap (gap ++ bracket.closer :: s) = bracket.closer :: s := by
    rw [skipGap_append hgap, skipGap_of_not_isGap (by cases bracket <;> decide)]
  cases expectation with
  | value => exact absurd rfl hnot
  | first => simp only [skipStep, hcloser, if_true]
  | next => simp only [skipStep, hcloser, if_true]

/-- What stands in front of a value is passed, but for blanks. -/
theorem IsHead.skipToValue {head : Input} (hhead : IsHead bracket head) (s : Input) :
    ∃ gap, IsBlank gap ∧ skipToValue bracket (head ++ s) = .ok (gap ++ s) := by
  cases hhead with
  | element hgap => exact ⟨head, hgap, rfl⟩
  | @member gap inside before behind hgap hinside hbefore hbehind =>
      refine ⟨behind, hbehind, ?_⟩
      have hopen : openName (gap ++ 0x22 :: (inside ++ 0x22 :: (before ++ 0x3A :: behind)) ++ s) =
          .ok (inside ++ 0x22 :: (before ++ 0x3A :: (behind ++ s))) := by
        unfold openName
        rw [List.append_assoc, skipGap_append hgap, List.cons_append,
          skipGap_of_not_isGap (by decide)]
        simp
      simp only [Json.skipToValue, skipName, hopen, bind, Except.bind, skipString_isInside hinside,
        readColon_append hbefore]

/-- Behind the opening bracket, the first item is looked for at once. -/
theorem leads_first {head : Input} (hhead : IsHead bracket head) (hs : BeginsValue s) :
    ∃ gap, IsBlank gap ∧
      Leads 1 (bracket :: opened, .first, head ++ s) (bracket :: opened, .value, gap ++ s) := by
  cases hhead with
  | element hgap =>
      refine ⟨[], isBlank_nil, leads_of_skipStep ?_⟩
      obtain ⟨byte, tail, rfl, hbyte, hcloser⟩ := hs
      have hskip : skipGap (head ++ byte :: tail) = byte :: tail := by
        rw [skipGap_append hgap, skipGap_of_not_isGap hbyte]
      simp only [skipStep, hskip, Bracket.closer, if_neg hcloser, if_true]
      rfl
  | @member gap inside before behind hgap hinside hbefore hbehind =>
      -- the blanks in front are passed by now, and what they stood in front of is a head as well
      have hrest := IsHead.member isBlank_nil hinside hbefore hbehind
      obtain ⟨left, hleft, hname⟩ := hrest.skipToValue s
      refine ⟨left, hleft, leads_of_skipStep ?_⟩
      simp only [List.nil_append, List.cons_append] at hname
      have hskip := skipGap_append hgap
        (0x22 :: (inside ++ 0x22 :: (before ++ 0x3A :: behind) ++ s))
      rw [skipGap_of_not_isGap (by decide)] at hskip
      simp only [List.append_assoc, List.cons_append] at hskip hname ⊢
      simp only [skipStep, hskip, Bracket.closer, if_neg (by decide : (0x22 : UInt8) ≠ 0x7D), if_true,
        hname]
      rfl

/-- Behind a value, a comma stands in front of the next item. -/
theorem leads_comma {head : Input} (hgap : IsBlank gap) (hhead : IsHead bracket head) (s : Input) :
    ∃ behind, IsBlank behind ∧
      Leads 1 (bracket :: opened, .next, gap ++ 0x2C :: (head ++ s))
        (bracket :: opened, .value, behind ++ s) := by
  obtain ⟨behind, hbehind, hskip⟩ := hhead.skipToValue s
  refine ⟨behind, hbehind, leads_of_skipStep ?_⟩
  have hcomma : skipGap (gap ++ 0x2C :: (head ++ s)) = 0x2C :: (head ++ s) := by
    rw [skipGap_append hgap, skipGap_of_not_isGap (by decide)]
  have hcloser : (0x2C : UInt8) ≠ bracket.closer := by cases bracket <;> decide
  simp [skipStep, hcomma, hcloser, hskip, bind, Except.bind]

/-! ### Phrases -/

/-- So many steps lead over the phrase: over a value, or out of a container, be it from its opening
bracket or from the comma behind an item. -/
def Phrase.Leads (steps : ℕ) : Phrase → Input → Prop
  | .value, text =>
    ∀ opened gap rest, IsBlank gap → Stops rest →
      Json.Leads steps (opened, .value, gap ++ (text ++ rest)) (opened, .next, rest)
  | .items bracket, text =>
    ∀ opened rest,
      Json.Leads steps (bracket :: opened, .first, text ++ rest) (opened, .next, rest) ∧
        ∀ gap, IsBlank gap →
          Json.Leads steps (bracket :: opened, .next, gap ++ 0x2C :: (text ++ rest))
            (opened, .next, rest)

/-- One step more than a value takes leads over an item. -/
theorem leads_item (opened : List Bracket) {head value : Input} {steps : ℕ}
    (hhead : IsHead bracket head)
    (hvalue : Forms .value value) (hsteps : Phrase.value.Leads steps value) (hs : Stops s) :
    Leads (1 + steps) (bracket :: opened, .first, head ++ (value ++ s))
        (bracket :: opened, .next, s) ∧
      ∀ gap, IsBlank gap →
        Leads (1 + steps) (bracket :: opened, .next, gap ++ 0x2C :: (head ++ (value ++ s)))
          (bracket :: opened, .next, s) := by
  constructor
  · obtain ⟨gap, hgap, hfirst⟩ := leads_first hhead (hvalue.beginsValue.append s)
    exact hfirst.trans (hsteps _ gap s hgap hs)
  · intro gap hgap
    obtain ⟨behind, hbehind, hcomma⟩ := leads_comma hgap hhead (value ++ s)
    exact hcomma.trans (hsteps _ behind s hbehind hs)

/-- The steps by which a phrase stays below twice its bytes. -/
def Phrase.spare : Phrase → ℕ
  | .value => 1
  | .items _ => 0

theorem skipStart_minus {tail : Input} (hskip : skipGap s = 0x2D :: tail)
    (hnumeral : skipNumeral tail = .ok rest) : skipStart s = .ok (none, rest) := by
  unfold skipStart
  rw [hskip]
  simp [hnumeral, bind, Except.bind]

theorem skipStart_digit {byte : UInt8} {tail : Input} (hskip : skipGap s = byte :: tail)
    (hdigit : isDigit byte = true) (hnumeral : skipNumeral (byte :: tail) = .ok rest) :
    skipStart s = .ok (none, rest) := by
  have hnull : byte ≠ 0x6E := ne_of_isDigit hdigit (by decide)
  have htrue : byte ≠ 0x74 := ne_of_isDigit hdigit (by decide)
  have hfalse : byte ≠ 0x66 := ne_of_isDigit hdigit (by decide)
  have hminus : byte ≠ 0x2D := ne_of_isDigit hdigit (by decide)
  unfold skipStart
  rw [hskip]
  simp only [hnull, htrue, hfalse, hminus, if_false, hdigit, if_true, hnumeral, bind, Except.bind]

theorem IsMagnitude.skipStart (htext : IsMagnitude text) (hrest : Stops rest) :
    skipStart (text ++ rest) = .ok (none, rest) := by
  have hnumeral := htext.skipNumeral hrest
  obtain ⟨byte, tail, rfl, hbyte⟩ := htext.head
  exact skipStart_digit (skipGap_of_not_isGap (isGap_of_isDigit hbyte).1 _) hbyte hnumeral

theorem skipStart_string (htext : IsInside text) (rest : Input) :
    skipStart (0x22 :: (text ++ [0x22]) ++ rest) = .ok (none, rest) := by
  have hstring := skipString_isInside htext rest
  have hdigit : isDigit 0x22 = false := by decide
  rw [List.cons_append, List.append_assoc, List.singleton_append]
  unfold skipStart
  rw [skipGap_of_not_isGap (by decide)]
  simp [hdigit, hstring, bind, Except.bind]

theorem skipStart_negative (htext : IsMagnitude text) (hrest : Stops rest) :
    skipStart (0x2D :: text ++ rest) = .ok (none, rest) :=
  skipStart_minus (skipGap_of_not_isGap (by decide) _) (htext.skipNumeral hrest)

/-- **Every phrase is passed**, in fewer steps than twice its bytes. -/
theorem Forms.leads {phrase : Phrase} (htext : Forms phrase text) :
    ∃ steps, steps + phrase.spare ≤ 2 * text.length ∧ phrase.Leads steps text := by
  have hscalar : ∀ {text : Input}, text ≠ [] →
      (∀ rest, Stops rest → skipStart (text ++ rest) = .ok (none, rest)) →
      ∃ steps, steps + Phrase.value.spare ≤ 2 * text.length ∧ Phrase.value.Leads steps text := by
    intro text hne hstart
    have hlength := List.length_pos_of_ne_nil hne
    exact ⟨1, by simp only [Phrase.spare]; omega,
      fun _ _ rest hgap hrest => leads_of_skipStart hgap (hstart rest hrest)⟩
  induction htext with
  | null => exact hscalar (by simp) fun _ _ => rfl
  | true => exact hscalar (by simp) fun _ _ => rfl
  | false => exact hscalar (by simp) fun _ _ => rfl
  | number htext =>
      obtain ⟨byte, tail, rfl, -⟩ := htext.head
      exact hscalar (by simp) fun _ hrest => htext.skipStart hrest
  | negative htext => exact hscalar (by simp) fun _ hrest => skipStart_negative htext hrest
  | string htext => exact hscalar (by simp) fun rest _ => skipStart_string htext rest
  | @empty bracket gap hgap =>
      refine ⟨1 + 1, ?_, fun opened front rest hfront _ => ?_⟩
      · simp only [Phrase.spare, List.length_cons, List.length_append]
        omega
      · rw [List.cons_append, List.append_assoc, List.singleton_append]
        exact (leads_opener hfront _).trans (leads_closer .first (by simp) hgap rest)
  | container hitems ih =>
      obtain ⟨steps, hsteps, hleads⟩ := ih
      refine ⟨1 + steps, ?_, fun opened front rest hfront _ => ?_⟩
      · simp only [Phrase.spare, List.length_cons] at hsteps ⊢
        omega
      · exact (leads_opener hfront _).trans (hleads opened rest).1
  | @last bracket head value gap hhead hvalue hgap ih =>
      obtain ⟨steps, hsteps, hleads⟩ := ih
      refine ⟨1 + steps + 1, ?_, fun opened rest => ?_⟩
      · simp only [Phrase.spare, List.length_cons, List.length_append] at hsteps ⊢
        omega
      · have hcloser : Stops (gap ++ bracket.closer :: rest) :=
          stops_append hgap (stops_cons (by cases bracket <;> decide) rest)
        have hclose : Leads 1 (bracket :: opened, .next, gap ++ bracket.closer :: rest)
            (opened, .next, rest) := leads_closer .next (by simp) hgap rest
        obtain ⟨hfirst, hcomma⟩ := leads_item opened hhead hvalue hleads hcloser
        simp only [List.append_assoc, List.singleton_append]
        exact ⟨hfirst.trans hclose, fun front hfront => (hcomma front hfront).trans hclose⟩
  | @more bracket head value gap items hhead hvalue hgap hitems ih ihitems =>
      obtain ⟨steps, hsteps, hleads⟩ := ih
      obtain ⟨others, hothers, hmore⟩ := ihitems
      refine ⟨1 + steps + others, ?_, fun opened rest => ?_⟩
      · simp only [Phrase.spare, List.length_cons, List.length_append] at hsteps hothers ⊢
        omega
      · have hstops : Stops (gap ++ 0x2C :: (items ++ rest)) :=
          stops_append hgap (stops_cons (by decide) _)
        have hrest := (hmore opened rest).2 gap hgap
        obtain ⟨hfirst, hcomma⟩ := leads_item opened hhead hvalue hleads hstops
        simp only [List.append_assoc, List.cons_append]
        exact ⟨hfirst.trans hrest, fun front hfront => (hcomma front hfront).trans hrest⟩

/-- **A value of any form is passed over**, whatever blanks stand in front of it. -/
theorem Forms.skipValue (htext : Forms .value text) (hgap : IsBlank gap) (hrest : Stops rest) :
    skipValue (gap ++ (text ++ rest)) = .ok rest := by
  obtain ⟨steps, hsteps, hleads⟩ := htext.leads
  have hlength : text.length ≤ (gap ++ (text ++ rest)).length := by
    simp only [List.length_append]
    omega
  -- one unit of fuel is left to notice that no container is open
  obtain ⟨fuel, hfuel⟩ : ∃ fuel, 2 * (gap ++ (text ++ rest)).length + 2 = fuel + 1 + steps :=
    ⟨2 * (gap ++ (text ++ rest)).length + 1 - steps, by omega⟩
  rw [Json.skipValue, hfuel, hleads [] gap rest hgap hrest (fuel + 1)]
  rfl

end ServiceWatch.Json
