import ServiceWatch.Json.Skip

/-!
# Values of a known type in a JSON document

A record knows of each of its members what it holds.  The readers here read a value of one type;
a value of another kind is read as far as it takes to name it in the fault.
-/

namespace ServiceWatch.Json

/-- The fault of a value of the wrong kind. -/
def wrongKind (found : Found) (expected : String) : Fault :=
  .mismatch (.kind found expected)

/-- Fails because the value at the front of the input is not what is expected.  A container is
named at its opening bracket, anything else behind it. -/
def readWrongKind {α : Type} (expected : String) (s : Input) : Except Failure α :=
  match s with
  | [] => failAt .expectedValue []
  | byte :: rest =>
    if byte = 0x6E then do
      let s ← readWord [0x75, 0x6C, 0x6C] rest
      failAt (wrongKind .null expected) s
    else if byte = 0x74 then do
      let s ← readWord [0x72, 0x75, 0x65] rest
      failAt (wrongKind (.boolean true) expected) s
    else if byte = 0x66 then do
      let s ← readWord [0x61, 0x6C, 0x73, 0x65] rest
      failAt (wrongKind (.boolean false) expected) s
    else if byte = 0x2D then do
      let (numeral, s) ← readNumeral true rest
      failAt (wrongKind numeral.found expected) s
    else if isDigit byte then do
      let (numeral, s) ← readNumeral false s
      failAt (wrongKind numeral.found expected) s
    else if byte = 0x22 then do
      let (text, s) ← readString rest
      failAt (wrongKind (.text text) expected) s
    else if byte = 0x5B then failAt (wrongKind .sequence expected) s
    else if byte = 0x7B then failAt (wrongKind .map expected) s
    else failAt .expectedValue rest

/-- Reads a number literal, or fails because something else stands there. -/
def readNumber (expected : String) (s : Input) : Except Failure (Numeral × Input) :=
  match skipGap s with
  | [] => failAt (.endInside .value) []
  | byte :: s =>
    if byte = 0x2D then readNumeral true s
    else if isDigit byte then readNumeral false (byte :: s)
    else readWrongKind expected (byte :: s)

/-- The machine word that a literal gives. -/
def Numeral.toWord (expected : String) : Numeral → Except Fault UInt64
  | .unsigned value => .ok value
  | .negative magnitude =>
    .error (.mismatch (.range (.integer (-(magnitude.toNat : Int))) expected))
  | .float value => .error (wrongKind (.float value) expected)

/-- Reads a natural number of sixty-four bits. -/
def readUInt64 (s : Input) : Except Failure (UInt64 × Input) := do
  let (numeral, s) ← readNumber "u64" s
  match numeral.toWord "u64" with
  | .ok value => .ok (value, s)
  | .error fault => failAt fault s

/-- Reads a floating-point number; an integer is converted to the nearest one. -/
def readBinary64 (s : Input) : Except Failure (Binary64 × Input) := do
  let (numeral, s) ← readNumber "f64" s
  .ok (numeral.toBinary64, s)

/-- Reads a string, called `expected` in a fault. -/
def readText (expected : String) (s : Input) : Except Failure (String × Input) :=
  match skipGap s with
  | [] => failAt (.endInside .value) []
  | 0x22 :: s => readString s
  | s => readWrongKind expected s

/-- Reads `null` as an absent value, and anything else with the reader given. -/
def readOptional {α : Type} (read : Input → Except Failure (α × Input)) (s : Input) :
    Except Failure (Option α × Input) :=
  match skipGap s with
  | 0x6E :: s => do
    let s ← readWord [0x75, 0x6C, 0x6C] s
    .ok (none, s)
  | s => do
    let (value, s) ← read s
    .ok (some value, s)

end ServiceWatch.Json
