/-!
# UTF-8

Texts are written to files as UTF-8, and bytes from outside are read back as texts.  The reader is
an automaton over single bytes: it either stands between characters or waits for tail bytes in a
known range.  A byte that cannot continue a character ends it as broken and is looked at again as
the start of a character, so every maximal broken run counts as one piece.  `decode?` refuses
broken pieces; `decodeLossy` replaces each by U+FFFD.
-/

namespace ServiceWatch.Text.Utf8

/-- The bytes of a text. -/
def encode (cs : List Char) : List UInt8 :=
  cs.flatMap String.utf8EncodeChar

/-- Where the reader stands: between two characters, or inside one, with the number of tail bytes
still to come less one, the range of the next of them and the bits read so far. -/
inductive Position where
  | between
  | inside (more : Nat) (low high : UInt8) (bits : Nat)
deriving DecidableEq, Repr

/-- A piece of the input: a character, or `none` for a broken run of bytes. -/
abbrev Piece := Option Char

/-- What a byte at the start of a character tells. -/
def start (byte : UInt8) : List Piece × Position :=
  if byte < 0x80 then ([some (Char.ofNat byte.toNat)], .between)
  else if byte < 0xC2 then ([none], .between)
  else if byte < 0xE0 then ([], .inside 0 0x80 0xBF (byte.toNat - 0xC0))
  else if byte = 0xE0 then ([], .inside 1 0xA0 0xBF 0)
  else if byte = 0xED then ([], .inside 1 0x80 0x9F 0xD)
  else if byte < 0xF0 then ([], .inside 1 0x80 0xBF (byte.toNat - 0xE0))
  else if byte = 0xF0 then ([], .inside 2 0x90 0xBF 0)
  else if byte < 0xF4 then ([], .inside 2 0x80 0xBF (byte.toNat - 0xF0))
  else if byte = 0xF4 then ([], .inside 2 0x80 0x8F 4)
  else ([none], .between)

/-- What the next byte tells. -/
def step (position : Position) (byte : UInt8) : List Piece × Position :=
  match position with
  | .between => start byte
  | .inside more low high bits =>
    if low ≤ byte ∧ byte ≤ high then
      let bits := bits * 64 + (byte.toNat - 0x80)
      match more with
      | 0 => ([some (Char.ofNat bits)], .between)
      | more + 1 => ([], .inside more 0x80 0xBF bits)
    else
      let (pieces, position) := start byte
      (none :: pieces, position)

/-- The pieces of the bytes, read from a position on. -/
def piecesFrom (position : Position) : List UInt8 → List Piece
  | [] =>
    match position with
    | .between => []
    | .inside .. => [none]
  | byte :: bytes =>
    let (pieces, next) := step position byte
    pieces ++ piecesFrom next bytes

/-- The pieces of the bytes. -/
def pieces (bytes : List UInt8) : List Piece :=
  piecesFrom .between bytes

/-- The text that the bytes spell, if they are UTF-8 throughout. -/
def decode? (bytes : List UInt8) : Option (List Char) :=
  (pieces bytes).mapM id

/-- The text that the bytes spell, with U+FFFD for every broken piece. -/
def decodeLossy (bytes : List UInt8) : List Char :=
  (pieces bytes).map fun piece => piece.getD '\uFFFD'

/-- Where the first broken piece begins, when the bytes are read from a position on.  `done` bytes
belong to whole characters and `pending` more to the one that has begun. -/
def brokenFrom? (position : Position) (done pending : Nat) : List UInt8 → Option Nat
  | [] =>
    match position with
    | .between => none
    | .inside .. => some done
  | byte :: bytes =>
    let (pieces, next) := step position byte
    if pieces.contains none then some done
    else
      match next with
      | .between => brokenFrom? next (done + pending + 1) 0 bytes
      | .inside .. => brokenFrom? next done (pending + 1) bytes

/-- How many bytes stand in front of the first broken piece, if there is one. -/
def broken? (bytes : List UInt8) : Option Nat :=
  brokenFrom? .between 0 0 bytes

end ServiceWatch.Text.Utf8
