import ServiceWatch.Json.Typed

/-!
# Reading a value as a tree

A value whose meaning is known only after all of it was read, such as a tagged element whose tag
may come last, is read as a `Value`.  Containers may be nested to a limited depth here: `depth` is
how many more may be open, and opening the last of them fails.
-/

namespace ServiceWatch.Json

/-- Reads a value that is no container. -/
def readScalar (s : Input) : Except Failure (Value × Input) :=
  match s with
  | [] => failAt (.endInside .value) []
  | byte :: rest =>
    if byte = 0x6E then do
      let s ← readWord [0x75, 0x6C, 0x6C] rest
      .ok (.null, s)
    else if byte = 0x74 then do
      let s ← readWord [0x72, 0x75, 0x65] rest
      .ok (.bool true, s)
    else if byte = 0x66 then do
      let s ← readWord [0x61, 0x6C, 0x73, 0x65] rest
      .ok (.bool false, s)
    else if byte = 0x2D then do
      let (numeral, s) ← readNumeral true rest
      .ok (.number numeral, s)
    else if isDigit byte then do
      let (numeral, s) ← readNumeral false s
      .ok (.number numeral, s)
    else if byte = 0x22 then do
      let (text, s) ← readString rest
      .ok (.string text, s)
    else failAt .expectedValue rest

/-- What a further container leaves of the depth; the last one may not be opened. -/
def deeper (depth : Nat) (s : Input) : Except Failure Nat :=
  if depth ≤ 1 then failAt .tooDeep s else .ok (depth - 1)

mutual

/-- Reads a value. -/
def readTreeWith : (fuel depth : Nat) → Input → Except Failure (Value × Input)
  | 0, _, s => failAt (.endInside .value) s
  | fuel + 1, depth, s =>
    match skipGap s with
    | [] => failAt (.endInside .value) []
    | byte :: rest =>
      if byte = 0x5B then
        match deeper depth rest with
        | .error failure => .error failure
        | .ok depth =>
          match readTreesWith fuel depth true [] rest with
          | .error failure => .error failure
          | .ok (elements, s) =>
            match closeList s with
            | .error failure => .error failure
            | .ok s => .ok (.array elements, s)
      else if byte = 0x7B then
        match deeper depth rest with
        | .error failure => .error failure
        | .ok depth =>
          match readMembersWith fuel depth true [] rest with
          | .error failure => .error failure
          | .ok (members, s) =>
            match closeObject s with
            | .error failure => .error failure
            | .ok s => .ok (.object members, s)
      else readScalar (byte :: rest)

/-- Reads the elements of a list up to its closing bracket, behind those in `before`, which are in
reverse. -/
def readTreesWith :
    (fuel depth : Nat) → (first : Bool) → (before : List Value) → Input →
      Except Failure (List Value × Input)
  | 0, _, _, _, s => failAt (.endInside .list) s
  | fuel + 1, depth, first, before, s =>
    match readElement? first s with
    | .error failure => .error failure
    | .ok (false, s) => .ok (before.reverse, s)
    | .ok (true, s) =>
      match readTreeWith fuel depth s with
      | .error failure => .error failure
      | .ok (value, s) => readTreesWith fuel depth false (value :: before) s

/-- Reads the members of an object up to its closing brace, behind those in `before`, which are in
reverse. -/
def readMembersWith :
    (fuel depth : Nat) → (first : Bool) → (before : List (String × Value)) → Input →
      Except Failure (List (String × Value) × Input)
  | 0, _, _, _, s => failAt (.endInside .object) s
  | fuel + 1, depth, first, before, s =>
    match readName? first s with
    | .error failure => .error failure
    | .ok (none, s) => .ok (before.reverse, s)
    | .ok (some name, s) =>
      match readColon s with
      | .error failure => .error failure
      | .ok s =>
        match readTreeWith fuel depth s with
        | .error failure => .error failure
        | .ok (value, s) => readMembersWith fuel depth false ((name, value) :: before) s

end

/-- The fuel for reading trees: no call is more than two calls away from one that reads a byte. -/
def treeFuel (s : Input) : Nat :=
  2 * s.length + 4

/-- Reads a value in which fewer than `depth` containers are nested. -/
def readTree (depth : Nat) (s : Input) : Except Failure (Value × Input) :=
  readTreeWith (treeFuel s) depth s

/-- Reads the elements that are left in a list. -/
def readTrees (depth : Nat) (first : Bool) (s : Input) : Except Failure (List Value × Input) :=
  readTreesWith (treeFuel s) depth first [] s

end ServiceWatch.Json
