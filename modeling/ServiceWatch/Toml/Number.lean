import ServiceWatch.Binary64.Decimal
import ServiceWatch.Toml.Scan

/-!
# Numbers, dates and times of a TOML document

Digits may be grouped by single underscores between them.  An integer has to fit sixty-four bits
with a sign; a decimal one has no superfluous zero in front.  A floating-point number that is too
great is refused, while one that is too small is the negative infinity.  A date has to be one of
the calendar.
-/

namespace ServiceWatch.Toml

/-- Reads digits behind the first one, with underscores between them, in reverse in front of
`before`. -/
def readGrouped (accept : Char → Bool) (before : List Char) : Input → Option (List Char × Input)
  | '_' :: c :: s => if accept c then readGrouped accept (c :: before) s else none
  | c :: s =>
    if accept c then readGrouped accept (c :: before) s
    else if c = '_' then none
    else some (before.reverse, c :: s)
  | [] => some (before.reverse, [])

/-- Reads at least one digit. -/
def readDigits (accept : Char → Bool) : Input → Option (List Char × Input)
  | c :: s => if accept c then readGrouped accept [c] s else none
  | [] => none

/-- The number that digits spell. -/
def valueOf (base : Nat) (digits : List Char) : Nat :=
  digits.foldl (fun n c => n * base + (hexDigit? c).getD 0) 0

/-- Whether an integer fits sixty-four bits with a sign. -/
def fits (n : Int) : Bool :=
  -(0x8000000000000000 : Int) ≤ n && n < 0x8000000000000000

/-- An integer, if it fits. -/
def integer? (n : Int) : Option Item :=
  if fits n then some (.integer n) else none

/-- Reads an integer in another base than ten, behind its mark. -/
def readBased (base : Nat) (s : Input) : Option (Item × Input) := do
  let accept := fun c => (hexDigit? c).any (· < base)
  let (digits, s) ← readDigits accept s
  let item ← integer? (valueOf base digits)
  some (item, s)

/-- Reads a sign; tells whether it is a minus. -/
def readSign : Input → Bool × Input
  | '-' :: s => (true, s)
  | '+' :: s => (false, s)
  | s => (false, s)

/-- Reads the digits of a decimal integer: a zero alone, or digits that do not start with one. -/
def readWhole : Input → Option (List Char × Input)
  | '0' :: s => some (['0'], s)
  | s => readDigits isDigit s

/-- A floating-point number, unless it is too great. -/
def float? (negative : Bool) (digits : List Char) (exponent : Int) : Option Item :=
  let value := Decimal.nearest negative ⟨valueOf 10 digits, exponent⟩
  if value = .infinity false then none else some (.float value)

/-- Reads an exponent, if there is one. -/
def readExponent (s : Input) : Option (Int × Input) :=
  match s with
  | c :: rest =>
    if c = 'e' ∨ c = 'E' then do
      let (below, rest) := readSign rest
      let (digits, rest) ← readDigits isDigit rest
      let n := valueOf 10 digits
      some (if below then -(n : Int) else n, rest)
    else some (0, s)
  | [] => some (0, [])

/-- Reads what follows the integer digits of a number. -/
def readNumberTail (negative : Bool) (whole : List Char) : Input → Option (Item × Input)
  | '.' :: s => do
    let (fraction, s) ← readDigits isDigit s
    let (exponent, s) ← readExponent s
    let item ← float? negative (whole ++ fraction) (exponent - fraction.length)
    some (item, s)
  | s =>
    if s.head? = some 'e' ∨ s.head? = some 'E' then do
      let (exponent, s) ← readExponent s
      let item ← float? negative whole exponent
      some (item, s)
    else do
      let n : Int := valueOf 10 whole
      let item ← integer? (if negative then -n else n)
      some (item, s)

/-- Reads `inf` or `nan` behind its sign. -/
def readSpecial (negative : Bool) : Input → Option (Item × Input)
  | 'i' :: 'n' :: 'f' :: s => some (.float (.infinity negative), s)
  | 'n' :: 'a' :: 'n' :: s => some (.float .nan, s)
  | _ => none

/-- Reads a number that is neither a date nor a time. -/
def readNumber (s : Input) : Option (Item × Input) :=
  match s with
  | '0' :: 'x' :: s => readBased 16 s
  | '0' :: 'o' :: s => readBased 8 s
  | '0' :: 'b' :: s => readBased 2 s
  | s =>
    let (negative, rest) := readSign s
    match rest with
    | 'i' :: _ => readSpecial negative rest
    | 'n' :: _ => readSpecial negative rest
    | _ => do
      let (whole, rest) ← readWhole rest
      readNumberTail negative whole rest

/-! ### Dates and times -/

/-- Reads two digits whose value lies in a range. -/
def readPair (low high : Nat) : Input → Option (Nat × Input)
  | a :: b :: s =>
    if isDigit a && isDigit b then
      let n := valueOf 10 [a, b]
      if low ≤ n ∧ n ≤ high then some (n, s) else none
    else none
  | _ => none

/-- Reads one character. -/
def readChar (expected : Char) : Input → Option Input
  | c :: s => if c = expected then some s else none
  | [] => none

/-- How many days a month has. -/
def daysIn (year month : Nat) : Nat :=
  if month = 2 then
    if year % 4 = 0 ∧ (year % 100 ≠ 0 ∨ year % 400 = 0) then 29 else 28
  else if month = 4 ∨ month = 6 ∨ month = 9 ∨ month = 11 then 30
  else 31

/-- Reads the rest of a date behind the year and its hyphen. -/
def readMonthAndDay (year : Nat) (s : Input) : Option Input := do
  let (month, s) ← readPair 1 12 s
  let s ← readChar '-' s
  let (_, s) ← readPair 1 (daysIn year month) s
  some s

/-- Reads the decimals of a second, if there are any. -/
def skipFraction : Input → Input
  | '.' :: c :: s => if isDigit c then s.dropWhile isDigit else '.' :: c :: s
  | s => s

/-- Reads the rest of a time behind the hour and its colon. -/
def readMinuteAndSecond (s : Input) : Option Input := do
  let (_, s) ← readPair 0 59 s
  let s ← readChar ':' s
  let (_, s) ← readPair 0 60 s
  some (skipFraction s)

/-- Reads the distance from universal time, if there is one. -/
def readOffset : Input → Option Input
  | 'Z' :: s => some s
  | 'z' :: s => some s
  | c :: s =>
    if c = '+' ∨ c = '-' then do
      let (_, s) ← readPair 0 23 s
      let s ← readChar ':' s
      let (_, s) ← readPair 0 59 s
      some s
    else some (c :: s)
  | [] => some []

/-- Reads the time that may follow a date, behind a `T` or a space.  What only looks like a time
up to its hour is left alone. -/
def readTimeOfDay (s : Input) : Option Input :=
  match s with
  | c :: rest =>
    if c = 'T' ∨ c = 't' ∨ c = ' ' then
      match readPair 0 23 rest with
      | some (_, ':' :: rest) => do
        let rest ← readMinuteAndSecond rest
        readOffset rest
      | _ => some s
    else some s
  | [] => some []

/-- Reads a date or a time if the input begins with one; `none` inside tells that it does not. -/
def readMoment : Input → Option (Option Input)
  | a :: b :: ':' :: s =>
    if isDigit a && isDigit b then
      if valueOf 10 [a, b] ≤ 23 then (readMinuteAndSecond s).map some else none
    else some none
  | a :: b :: c :: d :: '-' :: s =>
    if [a, b, c, d].all isDigit then do
      let s ← readMonthAndDay (valueOf 10 [a, b, c, d]) s
      let s ← readTimeOfDay s
      some (some s)
    else some none
  | _ => some none

/-- Reads a number, a date or a time. -/
def readNumberOrMoment (s : Input) : Option (Item × Input) := do
  match ← readMoment s with
  | some rest => some (.moment (String.ofList (s.take (s.length - rest.length))), rest)
  | none => readNumber s

end ServiceWatch.Toml
