import ServiceWatch.Binary64.Basic

/-!
# Decimal text of binary64 numbers

A decimal is `digits * 10 ^ exponent`.  `Decimal.nearest` is the correctly rounded reading of one;
`Binary64.ofText?` reads the decimal texts of a metrics line with it: an optional sign, then
`inf`, `infinity` or `nan` in any case, or digits with an optional point, of which at least one is
needed, and an optional exponent.
-/

namespace ServiceWatch

/-- The number `digits * 10 ^ exponent`. -/
structure Decimal where
  digits : Nat
  exponent : Int
deriving DecidableEq, Repr, Inhabited

namespace Decimal

/-- The value of a decimal digit. -/
def digit? (c : Char) : Option Nat :=
  if c.toNat < 48 then none else if c.toNat < 58 then some (c.toNat - 48) else none

/-- How many decimal digits `n` has; zero has none. -/
def digitCount (n : Nat) : Nat :=
  if n = 0 then 0 else (Nat.toDigits 10 n).length

/-- The magnitude of the decimal as a quotient of two numbers of units. -/
def units (d : Decimal) : Nat × Nat :=
  match d.exponent with
  | .ofNat e => (d.digits * Nat.pow 10 e * Binary64.unitsInOne, 1)
  | .negSucc e => (d.digits * Binary64.unitsInOne, Nat.pow 10 (e + 1))

/-- The binary64 number nearest to the decimal, with this sign.  The two guards keep the powers of
ten small: a decimal of at least `10 ^ 309` rounds to infinity, one below `10 ^ -324` to zero. -/
def nearest (negative : Bool) (d : Decimal) : Binary64 :=
  if d.digits = 0 then .signedZero negative
  else
    let top : Int := digitCount d.digits + d.exponent
    if 310 ≤ top then .infinity negative
    else if top ≤ -324 then .signedZero negative
    else .ofUnits negative d.units.1 d.units.2

/-- The digits at the front of a text, as a number behind `value`, with their count, and the rest
of the text. -/
def scanDigits (value count : Nat) : List Char → Nat × Nat × List Char
  | [] => (value, count, [])
  | c :: cs =>
    match digit? c with
    | some d => scanDigits (value * 10 + d) (count + 1) cs
    | none => (value, count, c :: cs)

/-- An exponent: a sign or none, then digits up to the end of the text, at least one. -/
def exponent? (cs : List Char) : Option Int :=
  let (negative, cs) :=
    match cs with
    | '-' :: rest => (true, rest)
    | '+' :: rest => (false, rest)
    | rest => (false, rest)
  match scanDigits 0 0 cs with
  | (_, 0, _) => none
  | (value, _, []) => some (if negative then -(value : Int) else value)
  | _ => none

/-- The decimal that a text without a sign spells. -/
def ofText? (cs : List Char) : Option Decimal :=
  let (whole, wholeCount, cs) := scanDigits 0 0 cs
  let (digits, fractionCount, cs) :=
    match cs with
    | '.' :: rest => scanDigits whole 0 rest
    | rest => (whole, 0, rest)
  if wholeCount + fractionCount = 0 then none
  else
    match cs with
    | [] => some ⟨digits, -(fractionCount : Int)⟩
    | c :: rest =>
      if c = 'e' ∨ c = 'E' then
        (exponent? rest).map fun e => ⟨digits, e - fractionCount⟩
      else none

end Decimal

namespace Binary64

/-- The lower-case form of an ASCII text. -/
def lowerCase (cs : List Char) : List Char :=
  cs.map Char.toLower

/-- The number that a text without a sign spells, given the sign that stood in front. -/
def ofUnsignedText? (negative : Bool) (cs : List Char) : Option Binary64 :=
  let word := lowerCase cs
  if word = "inf".toList ∨ word = "infinity".toList then some (.infinity negative)
  else if word = "nan".toList then some .nan
  else (Decimal.ofText? cs).map (Decimal.nearest negative)

/-- The number that a text spells, correctly rounded. -/
def ofText? : List Char → Option Binary64
  | '-' :: cs => ofUnsignedText? true cs
  | '+' :: cs => ofUnsignedText? false cs
  | cs => ofUnsignedText? false cs

end Binary64

end ServiceWatch
