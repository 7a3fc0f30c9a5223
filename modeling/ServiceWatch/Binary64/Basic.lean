/-!
# Binary64 numbers

A binary64 number is `nan`, or a sign and a *rank*: the position of its magnitude among all
magnitudes, counted from zero.  The rank is what the sixty-three bits below the sign bit spell, so
ranks and magnitudes are ordered alike, the rank `2 ^ 52 * k + f` has exponent field `k` and
fraction field `f`, and the first rank past the finite ones is infinity.

Magnitudes are counted in *units* of `2 ^ -1074`, the least positive magnitude, so every finite
magnitude is a natural number of units and the exact value of a quotient of two such numbers is a
quotient of natural numbers.  `nearestRank` rounds such a quotient, ties going to the even rank;
every operation here is the exact one, rounded by it.
-/

namespace ServiceWatch

/-- The rank of infinity, one more than that of the greatest finite magnitude. -/
def infinityRank : Nat := 0x7FF0000000000000

/-- A binary64 number.  All the not-a-number bit patterns are one `nan`. -/
inductive Binary64 where
  | nan
  | number (negative : Bool) (rank : Fin (infinityRank + 1))
deriving DecidableEq, Repr, Inhabited

namespace Binary64

/-- How many ranks share an exponent field: `2 ^ 52`. -/
def binade : Nat := 0x10000000000000

/-- The value of the bit that holds the sign: `2 ^ 63`. -/
def signBit : Nat := 0x8000000000000000

/-- The magnitude with this rank, in units of `2 ^ -1074`.  Past the finite ranks the formula
gives what the next magnitude would have been, which is where rounding starts to overflow. -/
def unitsOfRank (rank : Nat) : Nat :=
  if rank < binade then rank
  else (binade + rank % binade) * Nat.pow 2 (rank / binade - 1)

/-- The integer nearest to `num / den`, the even one of two that are equally near. -/
def roundToEven (num den : Nat) : Nat :=
  let floor := num / den
  let rest := num % den
  if 2 * rest < den then floor
  else if den < 2 * rest then floor + 1
  else if floor % 2 = 0 then floor else floor + 1

/-- The rank of the magnitude nearest to `num / den` units, the even one of two that are equally
near; anything past the greatest finite magnitude's half step is infinity. -/
def nearestRank (num den : Nat) : Nat :=
  let shift := Nat.log2 (num / den) - 52
  min infinityRank (shift * binade + roundToEven num (den * Nat.pow 2 shift))

theorem nearestRank_lt (num den : Nat) : nearestRank num den < infinityRank + 1 :=
  Nat.lt_succ_of_le (Nat.min_le_left ..)

/-- The number with this sign that is nearest to `num / den` units. -/
def ofUnits (negative : Bool) (num den : Nat) : Binary64 :=
  .number negative ⟨nearestRank num den, nearestRank_lt num den⟩

/-- The units in one. -/
def unitsInOne : Nat := Nat.pow 2 1074

/-- Zero with this sign. -/
def signedZero (negative : Bool) : Binary64 := .number negative 0

/-- Zero, without a sign. -/
def zero : Binary64 := signedZero false

/-- Infinity with this sign. -/
def infinity (negative : Bool) : Binary64 := .number negative (Fin.last infinityRank)

/-- The number nearest to a natural number, with this sign. -/
def ofNat (negative : Bool) (n : Nat) : Binary64 :=
  ofUnits negative (n * unitsInOne) 1

/-- Whether the number is neither `nan` nor an infinity. -/
def isFinite : Binary64 → Bool
  | .nan => false
  | .number _ rank => rank.val < infinityRank

/-- The position of the number among all numbers; both zeros stand at `0`. -/
def position (negative : Bool) (rank : Nat) : Int :=
  if negative then -(rank : Int) else rank

/-- Whether the first number is less than the second; never when one of them is `nan`. -/
def isLess : Binary64 → Binary64 → Bool
  | .number s a, .number t b => position s a < position t b
  | _, _ => false

/-- Whether the two numbers are equal as values: `nan` is not equal to itself, and the two zeros
are equal. -/
def isEqual : Binary64 → Binary64 → Bool
  | .number s a, .number t b => position s a == position t b
  | _, _ => false

/-- The number that these sixty-four bits spell. -/
def ofBits (bits : UInt64) : Binary64 :=
  let rank := bits.toNat % signBit
  if h : rank < infinityRank + 1 then .number (signBit ≤ bits.toNat) ⟨rank, h⟩ else .nan

/-- The sixty-four bits of the number; a `nan` gets the quiet pattern without a sign. -/
def toBits : Binary64 → UInt64
  | .nan => 0x7FF8000000000000
  | .number negative rank => UInt64.ofNat (rank.val + if negative then signBit else 0)

end Binary64

end ServiceWatch
