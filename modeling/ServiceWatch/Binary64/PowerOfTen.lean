import ServiceWatch.Binary64.Decimal

/-!
# Scaling by powers of ten

The numbers of JSON documents are read by a rule that rounds twice: the digits become a binary64
number, which is then multiplied or divided by a power of ten, itself a binary64 number.  Both
steps are rounded correctly, so the outcome may be a neighbour of the number nearest to the text.
-/

namespace ServiceWatch.Binary64

/-- The rank of the number nearest to `10 ^ e`. -/
def powerOfTenRank (e : Nat) : Nat :=
  nearestRank (Nat.pow 10 e * unitsInOne) 1

/-- The product of the magnitude with this rank and `10 ^ e`, rounded. -/
def timesPowerOfTen (rank e : Nat) : Nat :=
  nearestRank (unitsOfRank rank * unitsOfRank (powerOfTenRank e)) unitsInOne

/-- The quotient of the magnitude with this rank by `10 ^ e`, rounded. -/
def overPowerOfTen (rank e : Nat) : Nat :=
  nearestRank (unitsOfRank rank * unitsInOne) (unitsOfRank (powerOfTenRank e))

/-- The greatest power of ten that is a binary64 number. -/
def greatestPower : Nat := 308

/-- Divides the magnitude with this rank by `10 ^ e`, by the greatest power of ten at a time.  After
two such divisions nothing is left of a magnitude below `2 ^ 64`, so `tries` need not exceed two. -/
def overPowersOfTen (rank : Nat) : (tries e : Nat) → Nat
  | 0, e => if e ≤ greatestPower then overPowerOfTen rank e else 0
  | tries + 1, e =>
    if e ≤ greatestPower then overPowerOfTen rank e
    else overPowersOfTen (overPowerOfTen rank greatestPower) tries (e - greatestPower)

/-- The rank of `significand * 10 ^ exponent` by the rule of two roundings; `none` when it is past
the finite magnitudes. -/
def scaledRank? (significand : Nat) (exponent : Int) : Option Nat :=
  let rank := nearestRank (significand * unitsInOne) 1
  match exponent with
  | .ofNat e =>
    if e ≤ greatestPower then
      let product := timesPowerOfTen rank e
      if product < infinityRank then some product else none
    else if rank = 0 then some 0
    else none
  | .negSucc e => some (overPowersOfTen rank 2 (e + 1))

end ServiceWatch.Binary64
