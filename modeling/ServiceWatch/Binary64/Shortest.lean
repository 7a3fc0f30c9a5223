import ServiceWatch.Binary64.Decimal

/-!
# The fewest digits that read back

`Binary64.shortest rank` is a decimal with as few digits as any whose correctly rounded reading is
the magnitude with that rank.  The search goes through the decimal grids with one, two, three and
more digits.  On a grid only the two neighbours of the magnitude can read back if any point of the
grid does; the first grid with a neighbour that reads back wins, of two such neighbours the nearer,
and of two equally near the even one.  Seventeen digits always suffice.
-/

namespace ServiceWatch.Binary64

/-- Whether the decimal reads as the magnitude with this rank. -/
def readsBack (rank : Nat) (d : Decimal) : Bool :=
  d.nearest false = .ofUnits false (unitsOfRank rank) 1

/-- A decimal scale that brings every positive magnitude to at least one. -/
def scale : Nat := 324

/-- The exponent of ten of a positive magnitude: its first digit counts tens to this power. -/
def leadingExponent (rank : Nat) : Int :=
  (Decimal.digitCount (Nat.pow 10 scale * unitsOfRank rank / unitsInOne) : Int) - 1 - scale

/-- The magnitude with this rank as a quotient, counted in `10 ^ exponent`. -/
def inPowersOfTen (rank : Nat) (exponent : Int) : Nat × Nat :=
  match exponent with
  | .ofNat e => (unitsOfRank rank, unitsInOne * Nat.pow 10 e)
  | .negSucc e => (unitsOfRank rank * Nat.pow 10 (e + 1), unitsInOne)

/-- The neighbour on the grid `10 ^ exponent` that reads back, if one of the two does. -/
def onGrid? (rank : Nat) (exponent : Int) : Option Decimal :=
  let (num, den) := inPowersOfTen rank exponent
  let below : Decimal := ⟨num / den, exponent⟩
  let above : Decimal := ⟨num / den + 1, exponent⟩
  match readsBack rank below, readsBack rank above with
  | true, true => some ⟨roundToEven num den, exponent⟩
  | true, false => some below
  | false, true => some above
  | false, false => none

/-- The first grid with a neighbour that reads back, from `digits` digits on. -/
def shortestFrom (rank : Nat) : (tries digits : Nat) → Decimal
  | 0, digits =>
    let exponent := leadingExponent rank + 1 - digits
    let (num, den) := inPowersOfTen rank exponent
    ⟨roundToEven num den, exponent⟩
  | tries + 1, digits =>
    match onGrid? rank (leadingExponent rank + 1 - digits) with
    | some d => d
    | none => shortestFrom rank tries (digits + 1)

/-- The shortest decimal that reads back as the magnitude with this rank. -/
def shortest (rank : Nat) : Decimal :=
  shortestFrom rank 16 1

end ServiceWatch.Binary64

namespace ServiceWatch.Decimal

/-- The characters of the decimal digits of `n`; zero has one. -/
def digitChars (n : Nat) : List Char :=
  Nat.toDigits 10 n

/-- The digits without the zeros at their end; those only move the exponent. -/
def significantDigits (d : Decimal) : List Char :=
  ((digitChars d.digits).reverse.dropWhile (· == '0')).reverse

/-- The exponent of ten that the first digit counts. -/
def leading (d : Decimal) : Int :=
  (digitCount d.digits : Int) - 1 + d.exponent

/-- The decimal written out without an exponent, with a point and at least one digit on each side
of it. -/
def positional (d : Decimal) : List Char :=
  let digits := d.significantDigits
  match d.leading with
  | .ofNat e =>
    let whole := digits.take (e + 1) ++ List.replicate (e + 1 - digits.length) '0'
    let fraction := digits.drop (e + 1)
    whole ++ '.' :: (if fraction.isEmpty then ['0'] else fraction)
  | .negSucc e => '0' :: '.' :: (List.replicate e '0' ++ digits)

/-- The decimal written with one digit in front of the point and an exponent that always has a
sign; a single digit stands without a point. -/
def scientific (d : Decimal) : List Char :=
  let mantissa :=
    match d.significantDigits with
    | [] => ['0']
    | [c] => [c]
    | c :: cs => c :: '.' :: cs
  let exponent :=
    match d.leading with
    | .ofNat e => '+' :: digitChars e
    | .negSucc e => '-' :: digitChars (e + 1)
  mantissa ++ 'e' :: exponent

end ServiceWatch.Decimal
