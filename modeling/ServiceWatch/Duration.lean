/-!
# Lengths of time

A length of time is a number of nanoseconds.  Its text uses the greatest unit that is not longer
than it, with a fraction as long as it takes to be exact.
-/

namespace ServiceWatch

/-- A length of time. -/
structure Duration where
  nanoseconds : Nat
deriving DecidableEq, Repr, Inhabited

namespace Duration

/-- This many seconds. -/
def ofSeconds (n : Nat) : Duration := ⟨n * 1000000000⟩

/-- This many thousandths of a second. -/
def ofMilliseconds (n : Nat) : Duration := ⟨n * 1000000⟩

/-- The last `places` decimal digits of `n`, without the zeros at their end. -/
def fractionDigits (places n : Nat) : List Char :=
  let digits := Nat.toDigits 10 n
  let padded := List.replicate (places - digits.length) '0' ++ digits
  (padded.reverse.dropWhile (· == '0')).reverse

/-- The number `whole + fraction / 10 ^ places` with its unit. -/
def inUnit (nanoseconds places : Nat) (unit : String) : String :=
  let whole := toString (nanoseconds / Nat.pow 10 places)
  let fraction := nanoseconds % Nat.pow 10 places
  if fraction = 0 then whole ++ unit
  else whole ++ "." ++ String.ofList (fractionDigits places fraction) ++ unit

/-- The text of a length of time. -/
def text (duration : Duration) : String :=
  let n := duration.nanoseconds
  if 1000000000 ≤ n then inUnit n 9 "s"
  else if 1000000 ≤ n then inUnit n 6 "ms"
  else if 1000 ≤ n then inUnit n 3 "µs"
  else inUnit n 0 "ns"

end Duration

end ServiceWatch
