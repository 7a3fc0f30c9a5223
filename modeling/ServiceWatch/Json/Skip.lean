import ServiceWatch.Json.Number

/-!
# Passing over a value

A member with an unknown name may hold any value, nested to any depth.  `skipValue` checks its
form without building it: the containers that are still open are kept in a list, so the depth of
the value bounds neither the reader's stack nor what it accepts.
-/

namespace ServiceWatch.Json

/-- A container that is still open. -/
inductive Bracket where
  | square
  | curly
deriving DecidableEq, Repr, Inhabited

/-- What the reader of a value looks for next. -/
inductive Expectation where
  /-- A value. -/
  | value
  /-- The first element or member of the innermost container, or its end. -/
  | first
  /-- A comma or the end of the innermost container; without a container, nothing more. -/
  | next
deriving DecidableEq, Repr, Inhabited

/-- What follows a value in the innermost open container. -/
def Bracket.missingComma : Bracket → Fault
  | .square => .expectedCommaOrBracket
  | .curly => .expectedCommaOrBrace

/-- The part that the end of the document would cut short. -/
def Bracket.part : Bracket → Part
  | .square => .list
  | .curly => .object

/-- The byte that closes the container. -/
def Bracket.closer : Bracket → UInt8
  | .square => 0x5D
  | .curly => 0x7D

/-- Passes over a member name and its colon. -/
def skipName (s : Input) : Except Failure Input := do
  readColon (← skipString (← openName s))

/-- Passes over what stands in front of the next value of a container. -/
def skipToValue (bracket : Bracket) (s : Input) : Except Failure Input :=
  match bracket with
  | .square => .ok s
  | .curly => skipName s

/-- Passes over a value that is no container, or over the opening bracket of one. -/
def skipStart (s : Input) : Except Failure (Option Bracket × Input) :=
  match skipGap s with
  | [] => failAt (.endInside .value) []
  | byte :: s =>
    if byte = 0x6E then do .ok (none, ← readWord [0x75, 0x6C, 0x6C] s)
    else if byte = 0x74 then do .ok (none, ← readWord [0x72, 0x75, 0x65] s)
    else if byte = 0x66 then do .ok (none, ← readWord [0x61, 0x6C, 0x73, 0x65] s)
    else if byte = 0x2D then do .ok (none, ← skipNumeral s)
    else if isDigit byte then do .ok (none, ← skipNumeral (byte :: s))
    else if byte = 0x22 then do .ok (none, ← skipString s)
    else if byte = 0x5B then .ok (some .square, s)
    else if byte = 0x7B then .ok (some .curly, s)
    else failAt .expectedValue s

/-- One step over a value: the containers that are open, what to look for and what is left before
it, and the same after it.  `none` stands for the end of the value. -/
def skipStep (opened : List Bracket) (expectation : Expectation) (s : Input) :
    Except Failure (Option (List Bracket × Expectation) × Input) :=
  match expectation, opened with
  | .value, opened => do
    let (bracket, s) ← skipStart s
    match bracket with
    | some bracket => .ok (some (bracket :: opened, .first), s)
    | none => .ok (some (opened, .next), s)
  | _, [] => .ok (none, s)
  | expectation, bracket :: outer =>
    match skipGap s with
    | [] => failAt (.endInside bracket.part) []
    | byte :: s =>
      if byte = bracket.closer then .ok (some (outer, .next), s)
      else if expectation = .first then do
        let s ← skipToValue bracket (byte :: s)
        .ok (some (bracket :: outer, .value), s)
      else if byte = 0x2C then do
        let s ← skipToValue bracket s
        .ok (some (bracket :: outer, .value), s)
      else failAt bracket.missingComma s

/-- Steps to the end of the value.  A step reads a byte or is followed by one that does, so twice
as many units of fuel as there are bytes suffice. -/
def skipWith : (fuel : Nat) → List Bracket → Expectation → Input → Except Failure Input
  | 0, _, _, s => failAt (.endInside .value) s
  | fuel + 1, opened, expectation, s =>
    match skipStep opened expectation s with
    | .error failure => .error failure
    | .ok (none, s) => .ok s
    | .ok (some (opened, expectation), s) => skipWith fuel opened expectation s

/-- Passes over a value. -/
def skipValue (s : Input) : Except Failure Input :=
  skipWith (2 * s.length + 2) [] .value s

end ServiceWatch.Json
