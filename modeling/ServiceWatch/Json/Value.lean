import ServiceWatch.Binary64.Shortest
import ServiceWatch.Mismatch

/-!
# JSON values and their text

A number literal is an integer that fits a machine word, or a floating-point number.  The compact
text of a value has no blanks; the pretty text puts every element and member on a line of its own,
indented by two more spaces than its container, and leaves empty containers closed.

Floating-point numbers are written with the fewest digits that read back: positionally, with a
point, from `1e-5` on and below `1e16`, and with an exponent otherwise.  There is no text for `nan`
and the infinities, so they are written `null`.
-/

namespace ServiceWatch.Json

/-- A number literal. -/
inductive Numeral where
  | unsigned (value : UInt64)
  /-- The integer `-magnitude`, where `magnitude` lies between one and `2 ^ 63`. -/
  | negative (magnitude : UInt64)
  | float (value : Binary64)
deriving DecidableEq, Repr, Inhabited

/-- A JSON value; the members of an object keep their order and may repeat a name. -/
inductive Value where
  | null
  | bool (value : Bool)
  | number (value : Numeral)
  | string (value : String)
  | array (elements : List Value)
  | object (members : List (String × Value))
deriving Repr, Inhabited

/-- The text of a magnitude, positional where its leading exponent is between `-5` and `15`. -/
def magnitudeText (rank : Nat) : List Char :=
  if rank = 0 then ['0', '.', '0']
  else
    let d := Binary64.shortest rank
    if -5 ≤ d.leading ∧ d.leading < 16 then d.positional else d.scientific

/-- The text of a floating-point number. -/
def floatText : Binary64 → List Char
  | .nan => "null".toList
  | .number negative rank =>
    if rank.val < infinityRank then
      (if negative then ['-'] else []) ++ magnitudeText rank.val
    else "null".toList

/-- The text of a number literal. -/
def Numeral.text : Numeral → List Char
  | .unsigned value => Decimal.digitChars value.toNat
  | .negative magnitude => '-' :: Decimal.digitChars magnitude.toNat
  | .float value => floatText value

/-- What a number literal is in a message. -/
def Numeral.found : Numeral → Found
  | .unsigned value => .integer value.toNat
  | .negative magnitude => .integer (-(magnitude.toNat : Int))
  | .float value => .float value

/-- The number nearest to the literal. -/
def Numeral.toBinary64 : Numeral → Binary64
  | .unsigned value => .ofNat false value.toNat
  | .negative magnitude => .ofNat true magnitude.toNat
  | .float value => value

/-- The four lower-case hexadecimal digits of a control character's code. -/
def controlCode (n : Nat) : List Char :=
  ['0', '0', Nat.digitChar (n / 16), Nat.digitChar (n % 16)]

/-- The characters that stand for `c` inside a string. -/
def escapeChar (c : Char) : List Char :=
  if c = '"' then ['\\', '"']
  else if c = '\\' then ['\\', '\\']
  else if c.toNat = 0x8 then ['\\', 'b']
  else if c.toNat = 0x9 then ['\\', 't']
  else if c.toNat = 0xA then ['\\', 'n']
  else if c.toNat = 0xC then ['\\', 'f']
  else if c.toNat = 0xD then ['\\', 'r']
  else if c.toNat < 0x20 then '\\' :: 'u' :: controlCode c.toNat
  else [c]

/-- The text of a string, with its quotation marks. -/
def stringText (s : String) : List Char :=
  '"' :: (s.toList.flatMap escapeChar ++ ['"'])

namespace Value

/-- What a value is in a message. -/
def found : Value → Found
  | .null => .null
  | .bool value => .boolean value
  | .number value => value.found
  | .string value => .text value
  | .array _ => .sequence
  | .object _ => .map

mutual

/-- The text without blanks. -/
def compact : Value → List Char
  | .null => "null".toList
  | .bool true => "true".toList
  | .bool false => "false".toList
  | .number value => value.text
  | .string value => stringText value
  | .array elements => '[' :: (compactElements elements ++ [']'])
  | .object members => '{' :: (compactMembers members ++ ['}'])

/-- The elements, with commas between them. -/
def compactElements : List Value → List Char
  | [] => []
  | [last] => last.compact
  | element :: rest => element.compact ++ ',' :: compactElements rest

/-- The members, with commas between them. -/
def compactMembers : List (String × Value) → List Char
  | [] => []
  | [(name, last)] => stringText name ++ ':' :: last.compact
  | (name, value) :: rest => stringText name ++ ':' :: (value.compact ++ ',' :: compactMembers rest)

end

/-- A line break and the indentation of a depth. -/
def newLine (depth : Nat) : List Char :=
  '\n' :: List.replicate (2 * depth) ' '

mutual

/-- The text with a line for every element and member, inside a container of this depth. -/
def prettyAt (depth : Nat) : Value → List Char
  | .null => "null".toList
  | .bool true => "true".toList
  | .bool false => "false".toList
  | .number value => value.text
  | .string value => stringText value
  | .array [] => ['[', ']']
  | .array (element :: rest) =>
    '[' :: (newLine (depth + 1) ++ prettyElements (depth + 1) (element :: rest) ++
      newLine depth ++ [']'])
  | .object [] => ['{', '}']
  | .object (member :: rest) =>
    '{' :: (newLine (depth + 1) ++ prettyMembers (depth + 1) (member :: rest) ++
      newLine depth ++ ['}'])

/-- The elements, each but the first on a new line behind a comma. -/
def prettyElements (depth : Nat) : List Value → List Char
  | [] => []
  | [last] => last.prettyAt depth
  | element :: rest =>
    element.prettyAt depth ++ ',' :: (newLine depth ++ prettyElements depth rest)

/-- The members, each but the first on a new line behind a comma. -/
def prettyMembers (depth : Nat) : List (String × Value) → List Char
  | [] => []
  | [(name, last)] => stringText name ++ ':' :: ' ' :: last.prettyAt depth
  | (name, value) :: rest =>
    stringText name ++ ':' :: ' ' ::
      (value.prettyAt depth ++ ',' :: (newLine depth ++ prettyMembers depth rest))

end

/-- The pretty text of a document. -/
def pretty (value : Value) : List Char :=
  value.prettyAt 0

end Value

end ServiceWatch.Json
