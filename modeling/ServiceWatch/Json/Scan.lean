import ServiceWatch.Json.Fault
import ServiceWatch.Text.Utf8

/-!
# Blanks, words, strings and punctuation of a JSON document

Every reader here takes what is left of the document and gives what it read with what is then
left.  A string is read whole (`readString`) or passed over (`skipString`); passing over checks
the escapes but neither the bytes nor the pairing of surrogates.
-/

namespace ServiceWatch.Json

/-- The blanks between tokens: tab, line feed, carriage return and space. -/
def isGap (byte : UInt8) : Bool :=
  byte = 0x20 || byte = 0x0A || byte = 0x09 || byte = 0x0D

/-- The input behind the blanks at its front. -/
def skipGap (s : Input) : Input :=
  s.dropWhile isGap

/-- Reads the bytes of a word. -/
def readWord : List UInt8 → Input → Except Failure Input
  | [], s => .ok s
  | _ :: _, [] => failAt (.endInside .value) []
  | expected :: word, byte :: s =>
    if byte = expected then readWord word s else failAt .expectedWord s

/-- The value of a hexadecimal digit. -/
def hexDigit? (byte : UInt8) : Option Nat :=
  let n := byte.toNat
  if 48 ≤ n ∧ n < 58 then some (n - 48)
  else if 65 ≤ n ∧ n < 71 then some (n - 55)
  else if 97 ≤ n ∧ n < 103 then some (n - 87)
  else none

/-- The number that four hexadecimal digits spell. -/
def hexValue? (a b c d : UInt8) : Option Nat := do
  let a ← hexDigit? a
  let b ← hexDigit? b
  let c ← hexDigit? c
  let d ← hexDigit? d
  return ((a * 16 + b) * 16 + c) * 16 + d

/-- Reads four hexadecimal digits. -/
def readHex : Input → Except Failure (Nat × Input)
  | a :: b :: c :: d :: s =>
    match hexValue? a b c d with
    | some n => .ok (n, s)
    | none => failAt .invalidEscape s
  | _ => failAt (.endInside .string) []

/-- The character that a one-letter escape stands for. -/
def letterEscape? (byte : UInt8) : Option UInt8 :=
  if byte = 0x22 ∨ byte = 0x5C ∨ byte = 0x2F then some byte
  else if byte = 0x62 then some 0x08
  else if byte = 0x66 then some 0x0C
  else if byte = 0x6E then some 0x0A
  else if byte = 0x72 then some 0x0D
  else if byte = 0x74 then some 0x09
  else none

/-- Reads the second half of a surrogate pair, which has to follow the first. -/
def readTrailing (leading : Nat) : Input → Except Failure (Nat × Input)
  | [] => failAt (.endInside .string) []
  | 0x5C :: [] => failAt (.endInside .string) []
  | 0x5C :: 0x75 :: s => do
    let (trailing, s) ← readHex s
    if 0xDC00 ≤ trailing ∧ trailing ≤ 0xDFFF then
      .ok ((leading - 0xD800) * 0x400 + (trailing - 0xDC00) + 0x10000, s)
    else failAt .loneSurrogate s
  | 0x5C :: _ :: s => failAt .escapeCutShort s
  | _ :: s => failAt .escapeCutShort s

/-- Reads a character that is written by its code: one code unit, or two for a surrogate pair. -/
def readCodePoint (s : Input) : Except Failure (Nat × Input) := do
  let (unit, s) ← readHex s
  if 0xDC00 ≤ unit ∧ unit ≤ 0xDFFF then failAt .loneSurrogate s
  else if 0xD800 ≤ unit ∧ unit ≤ 0xDBFF then readTrailing unit s
  else .ok (unit, s)

/-- Reads an escape behind its backslash; gives the bytes it stands for. -/
def readEscape : Input → Except Failure (List UInt8 × Input)
  | [] => failAt (.endInside .string) []
  | byte :: s =>
    if byte = 0x75 then do
      let (code, s) ← readCodePoint s
      .ok (String.utf8EncodeChar (Char.ofNat code), s)
    else
      match letterEscape? byte with
      | some byte => .ok ([byte], s)
      | none => failAt .invalidEscape s

/-- Reads the bytes of a string behind its opening quotation mark, in reverse in front of
`before`.  One unit of fuel for every byte of the input suffices. -/
def readBytes (before : List UInt8) : (fuel : Nat) → Input → Except Failure (List UInt8 × Input)
  | 0, s => failAt (.endInside .string) s
  | _ + 1, [] => failAt (.endInside .string) []
  | fuel + 1, byte :: s =>
    if byte = 0x22 then .ok (before.reverse, s)
    else if byte = 0x5C then
      match readEscape s with
      | .ok (bytes, s) => readBytes (bytes.reverse ++ before) fuel s
      | .error failure => .error failure
    else if byte < 0x20 then failAt .controlCharacter s
    else readBytes (byte :: before) fuel s

/-- Reads a string behind its opening quotation mark.  Bytes that are no text are found once the
string has been read, and told as many bytes before its end as the string has from the first of
them on; without an escape behind it, that is the place of that byte. -/
def readString (s : Input) : Except Failure (String × Input) := do
  let (bytes, rest) ← readBytes [] (s.length + 1) s
  match Text.Utf8.decode? bytes with
  | some cs => .ok (String.ofList cs, rest)
  | none =>
    let whole := (Text.Utf8.broken? bytes).getD 0
    failAt .invalidCodePoint (s.drop (s.length - rest.length - (bytes.length - whole)))

/-- Passes over an escape behind its backslash. -/
def skipEscape : Input → Except Failure Input
  | [] => failAt (.endInside .string) []
  | byte :: s =>
    if byte = 0x75 then do
      let (_, s) ← readHex s
      .ok s
    else
      match letterEscape? byte with
      | some _ => .ok s
      | none => failAt .invalidEscape s

/-- Passes over a string behind its opening quotation mark, with fuel for every byte. -/
def skipStringWith : (fuel : Nat) → Input → Except Failure Input
  | 0, s => failAt (.endInside .string) s
  | _ + 1, [] => failAt (.endInside .string) []
  | fuel + 1, byte :: s =>
    if byte = 0x22 then .ok s
    else if byte = 0x5C then
      match skipEscape s with
      | .ok s => skipStringWith fuel s
      | .error failure => .error failure
    else if byte < 0x20 then failAt .controlCharacter (byte :: s)
    else skipStringWith fuel s

/-- Passes over a string behind its opening quotation mark. -/
def skipString (s : Input) : Except Failure Input :=
  skipStringWith (s.length + 1) s

/-- Reads the opening quotation mark of a member name that has to be there. -/
def openName (s : Input) : Except Failure Input :=
  match skipGap s with
  | 0x22 :: s => .ok s
  | [] => failAt (.endInside .object) []
  | _ :: s => failAt .nameNotString s

/-- Reads the colon behind a member name. -/
def readColon (s : Input) : Except Failure Input :=
  match skipGap s with
  | 0x3A :: s => .ok s
  | [] => failAt (.endInside .object) []
  | s => failBehind .expectedColon s

/-- Reads up to the next member name of an object and reads it, or stops at the closing brace,
which stays unread. -/
def readName? (first : Bool) (s : Input) : Except Failure (Option String × Input) :=
  match skipGap s with
  | [] => failAt (.endInside .object) []
  | byte :: s =>
    if byte = 0x7D then .ok (none, byte :: s)
    else if first then
      if byte = 0x22 then do
        let (name, s) ← readString s
        .ok (some name, s)
      else failAt .nameNotString s
    else if byte = 0x2C then
      match skipGap s with
      | [] => failAt (.endInside .value) []
      | 0x22 :: s => do
        let (name, s) ← readString s
        .ok (some name, s)
      | 0x7D :: s => failAt .trailingComma s
      | _ :: s => failAt .nameNotString s
    else failAt .expectedCommaOrBrace s

/-- Reads up to the next element of a list, which stays unread, or stops at the closing bracket:
whether there is an element, and the input from there on. -/
def readElement? (first : Bool) (s : Input) : Except Failure (Bool × Input) :=
  match skipGap s with
  | [] => failAt (.endInside .list) []
  | byte :: s =>
    if byte = 0x5D then .ok (false, byte :: s)
    else if first then .ok (true, byte :: s)
    else if byte = 0x2C then
      match skipGap s with
      | [] => failAt (.endInside .value) []
      | 0x5D :: s => failAt .trailingComma s
      | s => .ok (true, s)
    else failAt .expectedCommaOrBracket s

/-- Reads the closing brace of an object. -/
def closeObject (s : Input) : Except Failure Input :=
  match skipGap s with
  | [] => failAt (.endInside .object) []
  | 0x7D :: s => .ok s
  | 0x2C :: s => failAt .trailingComma s
  | _ :: s => failAt .trailingCharacters s

/-- Where the reader of an object stands after it tried to close the object.  A fault about the
object as a whole is reported there. -/
def leaveObject (s : Input) : Input :=
  match skipGap s with
  | 0x7D :: s => s
  | s => s

/-- Reads the closing bracket of a list. -/
def closeList (s : Input) : Except Failure Input :=
  match skipGap s with
  | [] => failAt (.endInside .list) []
  | 0x5D :: s => .ok s
  | 0x2C :: s =>
    match skipGap s with
    | 0x5D :: s => failAt .trailingComma s
    | s => failBehind .trailingCharacters s
  | _ :: s => failAt .trailingCharacters s

/-- Where the reader of a list stands after it tried to close the list, a comma included.  A fault
about the list as a whole is reported there. -/
def leaveList (s : Input) : Input :=
  match skipGap s with
  | 0x5D :: s => s
  | 0x2C :: s => skipGap s
  | s => s

/-- Reads the end of the document: nothing but blanks may be left. -/
def readEnd (s : Input) : Except Failure Unit :=
  match skipGap s with
  | [] => .ok ()
  | _ :: s => failAt .trailingCharacters s

end ServiceWatch.Json
