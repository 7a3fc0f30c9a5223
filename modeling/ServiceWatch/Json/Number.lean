import ServiceWatch.Binary64.PowerOfTen
import ServiceWatch.Json.Scan

/-!
# Number literals of a JSON document

An integer literal that fits a machine word is kept as it is.  Every other literal is read as a
floating-point number: its digits are collected while they fit sixty-four bits, the digits dropped
in front of the point and those kept behind it move the exponent, and the significand is scaled by
the rule of two roundings.  `-0` is a floating-point number too, for no integer has a signed zero.
-/

namespace ServiceWatch.Json

/-- The greatest significand that is collected. -/
def significandLimit : Nat := 0xFFFFFFFFFFFFFFFF

/-- The greatest exponent that is collected, and the bound of a sum of exponents. -/
def exponentLimit : Nat := 0x7FFFFFFF

/-- The value of a decimal digit. -/
def digit? (byte : UInt8) : Option Nat :=
  if byte < 48 then none else if byte < 58 then some (byte.toNat - 48) else none

/-- Whether the byte is a decimal digit. -/
def isDigit (byte : UInt8) : Bool :=
  (digit? byte).isSome

/-- Digits that were collected: their value behind what came before, how many there were, and
whether a further digit no longer fitted. -/
structure Digits where
  value : Nat
  count : Nat
  isFull : Bool
deriving DecidableEq, Repr, Inhabited

/-- Collects the digits at the front of the input while the value stays within the limit. -/
def collectDigits (limit value count : Nat) : Input → Digits × Input
  | [] => (⟨value, count, false⟩, [])
  | byte :: s =>
    match digit? byte with
    | none => (⟨value, count, false⟩, byte :: s)
    | some d =>
      if limit < value * 10 + d then (⟨value, count, true⟩, byte :: s)
      else collectDigits limit (value * 10 + d) (count + 1) s

/-- The number with this sign, significand and exponent. -/
def scaled (negative : Bool) (significand : Nat) (exponent : Int) (s : Input) :
    Except Failure (Binary64 × Input) :=
  match Binary64.scaledRank? significand exponent with
  | some rank =>
    if h : rank < infinityRank + 1 then .ok (.number negative ⟨rank, h⟩, s)
    else failAt .numberOutOfRange s
  | none => failAt .numberOutOfRange s

/-- The sum of two exponents, kept within the word that holds exponents. -/
def addExponents (a b : Int) : Int :=
  max (-(exponentLimit : Int) - 1) (min exponentLimit (a + b))

/-- Reads the exponent behind its letter.  One too great to collect makes the number zero when it
is negative or the significand is zero, and puts it out of range otherwise. -/
def readExponent (negative : Bool) (significand : Nat) (exponent : Int) (s : Input) :
    Except Failure (Binary64 × Input) :=
  let (below, s) :=
    match s with
    | 0x2B :: s => (false, s)
    | 0x2D :: s => (true, s)
    | s => (false, s)
  let (digits, rest) := collectDigits exponentLimit 0 0 s
  if digits.count = 0 then
    match rest with
    | [] => failAt (.endInside .value) []
    | _ :: rest => failAt .invalidNumber rest
  else if digits.isFull then
    if significand ≠ 0 ∧ !below then failBehind .numberOutOfRange rest
    else .ok (.signedZero negative, rest.dropWhile isDigit)
  else
    let written : Int := if below then -(digits.value : Int) else digits.value
    scaled negative significand (addExponents exponent written) rest

/-- Reads an exponent if there is one; then the number is complete. -/
def readScale (negative : Bool) (significand : Nat) (exponent : Int) (s : Input) :
    Except Failure (Binary64 × Input) :=
  match s with
  | byte :: rest =>
    if byte = 0x65 ∨ byte = 0x45 then readExponent negative significand exponent rest
    else scaled negative significand exponent s
  | [] => scaled negative significand exponent []

/-- Reads the digits behind the point, of which there is at least one.  Those that no longer fit
are dropped. -/
def readFraction (negative : Bool) (significand : Nat) (exponent : Int) (s : Input) :
    Except Failure (Binary64 × Input) :=
  let (digits, rest) := collectDigits significandLimit significand 0 s
  if digits.isFull then
    readScale negative digits.value (exponent - digits.count) (rest.dropWhile isDigit)
  else if digits.count = 0 then
    match rest with
    | [] => failAt (.endInside .value) []
    | _ :: rest => failAt .invalidNumber rest
  else readScale negative digits.value (exponent - digits.count) rest

/-- The literal of an integer with this sign; `none` when no machine word holds it. -/
def integerNumeral? (negative : Bool) (magnitude : Nat) : Option Numeral :=
  if !negative then some (.unsigned (UInt64.ofNat magnitude))
  else if 0 < magnitude ∧ magnitude ≤ 0x8000000000000000 then
    some (.negative (UInt64.ofNat magnitude))
  else none

/-- Reads what follows the integer digits, all of which fitted. -/
def readTail (negative : Bool) (significand : Nat) (s : Input) :
    Except Failure (Numeral × Input) :=
  match s with
  | 0x2E :: rest => do
    let (value, s) ← readFraction negative significand 0 rest
    .ok (.float value, s)
  | s =>
    if s.head? = some 0x65 ∨ s.head? = some 0x45 then do
      let (value, s) ← readScale negative significand 0 s
      .ok (.float value, s)
    else
      match integerNumeral? negative significand with
      | some numeral => .ok (numeral, s)
      | none => .ok (.float (.ofNat negative significand), s)

/-- Reads what follows integer digits that no longer fitted: the rest of them is dropped and moves
the exponent. -/
def readLongTail (negative : Bool) (significand : Nat) (s : Input) :
    Except Failure (Numeral × Input) := do
  let dropped := (s.takeWhile isDigit).length
  let (value, s) ←
    match s.dropWhile isDigit with
    | 0x2E :: rest => readFraction negative significand dropped rest
    | s => readScale negative significand dropped s
  .ok (.float value, s)

/-- Reads a number literal behind its sign.  A zero in front is the only integer digit. -/
def readNumeral (negative : Bool) (s : Input) : Except Failure (Numeral × Input) :=
  match s with
  | [] => failAt (.endInside .value) []
  | 0x30 :: s =>
    match s with
    | byte :: rest =>
      if isDigit byte then failAt .invalidNumber rest else readTail negative 0 (byte :: rest)
    | [] => readTail negative 0 []
  | byte :: s =>
    if isDigit byte then
      let (digits, rest) := collectDigits significandLimit 0 0 (byte :: s)
      if digits.isFull then readLongTail negative digits.value rest
      else readTail negative digits.value rest
    else failAt .invalidNumber s

/-- Passes over at least one digit. -/
def skipDigits : Input → Except Failure Input
  | [] => failAt .invalidNumber []
  | byte :: s => if isDigit byte then .ok (s.dropWhile isDigit) else failAt .invalidNumber s

/-- Passes over an exponent behind its letter. -/
def skipExponent : Input → Except Failure Input
  | 0x2B :: s => skipDigits s
  | 0x2D :: s => skipDigits s
  | s => skipDigits s

/-- Passes over a fraction and an exponent, as far as there are any. -/
def skipTail : Input → Except Failure Input
  | 0x2E :: s => do
    let s ← skipDigits s
    match s with
    | 0x65 :: s => skipExponent s
    | 0x45 :: s => skipExponent s
    | s => .ok s
  | 0x65 :: s => skipExponent s
  | 0x45 :: s => skipExponent s
  | s => .ok s

/-- Passes over a number literal behind its sign. -/
def skipNumeral : Input → Except Failure Input
  | 0x30 :: s =>
    match s with
    | byte :: rest => if isDigit byte then failAt .invalidNumber rest else skipTail (byte :: rest)
    | [] => .ok []
  | byte :: s =>
    if isDigit byte then skipTail (s.dropWhile isDigit) else failAt .invalidNumber s
  | [] => failAt .invalidNumber []

end ServiceWatch.Json
