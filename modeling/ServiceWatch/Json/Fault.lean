import ServiceWatch.Json.Value

/-!
# Why a JSON document is refused

A `Fault` is the cause; a `Failure` adds the part of the document that was unread at the place the
fault is reported at, from which the line and the column follow.  A fault about a byte that was
looked at but not read is reported behind that byte, at the end of the document at the end.
-/

namespace ServiceWatch.Json

/-- What is left to read of a document. -/
abbrev Input := List UInt8

/-- What the end of a document cut short. -/
inductive Part where
  | value
  | object
  | list
  | string
deriving DecidableEq, Repr, Inhabited

/-- Why a document is refused. -/
inductive Fault where
  | endInside (part : Part)
  | expectedValue
  | expectedWord
  | expectedColon
  | expectedCommaOrBrace
  | expectedCommaOrBracket
  | nameNotString
  | trailingComma
  | trailingCharacters
  | invalidNumber
  | numberOutOfRange
  | invalidEscape
  | controlCharacter
  | escapeCutShort
  | loneSurrogate
  | invalidCodePoint
  | tooDeep
  | mismatch (mismatch : Mismatch)
  | missingField (name : String)
  | duplicateField (name : String)
  | unknownVariant (name : String) (expected : List String)
  | wrongLength (length : Nat) (expected : String)
deriving DecidableEq, Repr, Inhabited

/-- The name of a part in a message. -/
def Part.name : Part → String
  | .value => "a value"
  | .object => "an object"
  | .list => "a list"
  | .string => "a string"

/-- A name between backquotes. -/
def backquoted (name : String) : String :=
  "`" ++ name ++ "`"

/-- The names that would have been accepted. -/
def oneOf : List String → String
  | [] => "there are no variants"
  | [name] => "expected " ++ backquoted name
  | [name, other] => "expected " ++ backquoted name ++ " or " ++ backquoted other
  | names => "expected one of " ++ ", ".intercalate (names.map backquoted)

/-- The text of a fault. -/
def Fault.message : Fault → String
  | .endInside part => "EOF while parsing " ++ part.name
  | .expectedValue => "expected value"
  | .expectedWord => "expected ident"
  | .expectedColon => "expected `:`"
  | .expectedCommaOrBrace => "expected `,` or `\x7d`"
  | .expectedCommaOrBracket => "expected `,` or `]`"
  | .nameNotString => "key must be a string"
  | .trailingComma => "trailing comma"
  | .trailingCharacters => "trailing characters"
  | .invalidNumber => "invalid number"
  | .numberOutOfRange => "number out of range"
  | .invalidEscape => "invalid escape"
  | .controlCharacter => "control character (\\u0000-\\u001F) found while parsing a string"
  | .escapeCutShort => "unexpected end of hex escape"
  | .loneSurrogate => "lone leading surrogate in hex escape"
  | .invalidCodePoint => "invalid unicode code point"
  | .tooDeep => "recursion limit exceeded"
  | .mismatch m => m.describe fun x => String.ofList (floatText x)
  | .missingField name => "missing field " ++ backquoted name
  | .duplicateField name => "duplicate field " ++ backquoted name
  | .unknownVariant name expected =>
    "unknown variant " ++ backquoted name ++ ", " ++ oneOf expected
  | .wrongLength length expected =>
    "invalid length " ++ toString length ++ ", expected " ++ expected

/-- A fault and what was unread at the place it is reported at. -/
structure Failure where
  fault : Fault
  rest : Input
deriving DecidableEq, Repr, Inhabited

/-- Fails at the place where `rest` is still unread. -/
def failAt {α : Type} (fault : Fault) (rest : Input) : Except Failure α :=
  .error ⟨fault, rest⟩

/-- Fails behind the next byte, which was looked at only; at the end, where the input ends. -/
def failBehind {α : Type} (fault : Fault) (rest : Input) : Except Failure α :=
  .error ⟨fault, rest.drop 1⟩

/-- The number of line feeds in the bytes. -/
def lineFeeds (bytes : List UInt8) : Nat :=
  bytes.count 10

/-- The number of bytes behind the last line feed. -/
def lastLineLength (bytes : List UInt8) : Nat :=
  (bytes.reverse.takeWhile (· != 10)).length

/-- The text of a failure to read a document, with its line and its column in bytes. -/
def Failure.message (document : Input) (failure : Failure) : String :=
  let done := document.take (document.length - failure.rest.length)
  failure.fault.message ++ " at line " ++ toString (lineFeeds done + 1) ++ " column " ++
    toString (lastLineLength done)

end ServiceWatch.Json
