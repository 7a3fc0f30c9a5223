import ServiceWatch.Http.Url

/-!
# Responses

A response is a status line, header lines, an empty line and a body.  The headers tell where the
body ends: it comes in chunks, or has a length, or goes on until the connection is closed.
Informational responses may stand in front of the one that counts.
-/

namespace ServiceWatch.Http

/-- Why bytes are no response. -/
inductive ResponseFault where
  /-- The connection was closed before the end of the headers. -/
  | headCutShort
  | badVersion
  | badStatus
  | badHeader
  /-- The connection was closed before the end of the body. -/
  | bodyCutShort
  | badChunk
deriving DecidableEq, Repr, Inhabited

/-- The reason to give for a fault. -/
def ResponseFault.message : ResponseFault → String
  | .headCutShort => "connection closed before message completed"
  | .badVersion => "invalid HTTP version parsed"
  | .badStatus => "invalid HTTP status-code parsed"
  | .badHeader => "invalid HTTP header parsed"
  | .bodyCutShort =>
    "error reading a body from connection: end of file before message length reached"
  | .badChunk => "error reading a body from connection: Invalid chunk size line: Invalid Size"

/-- A header: its name in lower case, and its value. -/
abbrev Header := List UInt8 × List UInt8

/-- A response whose body is still to be told from what follows it. -/
structure Head where
  status : Nat
  headers : List Header
deriving DecidableEq, Repr, Inhabited

/-! ### The head -/

/-- Reads a line up to its line feed, without the carriage return in front of that. -/
def readLine (s : List UInt8) : Except ResponseFault (List UInt8 × List UInt8) :=
  let line := s.takeWhile (· ≠ 0x0A)
  match s.drop line.length with
  | [] => .error .headCutShort
  | _ :: rest => .ok (if line.getLast? = some 0x0D then line.dropLast else line, rest)

/-- The number that decimal digits spell. -/
def number? (digits : List UInt8) : Option Nat :=
  if !digits.isEmpty && digits.all fun byte => 0x30 ≤ byte && byte ≤ 0x39 then
    some (digits.foldl (fun n byte => n * 10 + (byte.toNat - 0x30)) 0)
  else none

/-- The status of a status line. -/
def statusOf (line : List UInt8) : Except ResponseFault Nat :=
  if !((bytesOf "HTTP/1.1 ").isPrefixOf line || (bytesOf "HTTP/1.0 ").isPrefixOf line) then
    .error .badVersion
  else
    let rest := line.drop 9
    match number? (rest.take 3), rest.drop 3 with
    | some status, [] => if 100 ≤ status then .ok status else .error .badStatus
    | some status, 0x20 :: _ => if 100 ≤ status then .ok status else .error .badStatus
    | _, _ => .error .badStatus

/-- A blank inside a header line. -/
def isHeaderBlank (byte : UInt8) : Bool :=
  byte = 0x20 || byte = 0x09

/-- A byte of a header's name. -/
def isNameByte (byte : UInt8) : Bool :=
  isAlphanumeric byte || (bytesOf "!#$%&'*+-.^_|~").contains byte || byte = 0x60

/-- A byte of a header's value. -/
def isValueByte (byte : UInt8) : Bool :=
  byte = 0x09 || (0x20 ≤ byte && byte ≠ 0x7F)

/-- The bytes without the blanks around them. -/
def trimBlanks (s : List UInt8) : List UInt8 :=
  ((s.dropWhile isHeaderBlank).reverse.dropWhile isHeaderBlank).reverse

/-- The header of a line. -/
def headerOf (line : List UInt8) : Except ResponseFault Header :=
  let name := line.takeWhile isNameByte
  match name, line.drop name.length with
  | [], _ => .error .badHeader
  | name, 0x3A :: value =>
    if value.all isValueByte then .ok (name.map lowerByte, trimBlanks value)
    else .error .badHeader
  | _, _ => .error .badHeader

/-- Reads headers up to the empty line.  Every line has at least one byte. -/
def readHeaders : (fuel : Nat) → (before : List Header) → List UInt8 →
    Except ResponseFault (List Header × List UInt8)
  | 0, _, _ => .error .headCutShort
  | fuel + 1, before, s =>
    match readLine s with
    | .error fault => .error fault
    | .ok ([], rest) => .ok (before.reverse, rest)
    | .ok (line, rest) =>
      match headerOf line with
      | .error fault => .error fault
      | .ok header => readHeaders fuel (header :: before) rest

/-- Reads the status line and the headers. -/
def readHead (s : List UInt8) : Except ResponseFault (Head × List UInt8) := do
  let (line, rest) ← readLine s
  let status ← statusOf line
  let (headers, rest) ← readHeaders (rest.length + 1) [] rest
  .ok (⟨status, headers⟩, rest)

/-- Reads heads up to the first that is not informational.  Every head has at least one byte. -/
def readFinalHead : (fuel : Nat) → List UInt8 → Except ResponseFault (Head × List UInt8)
  | 0, _ => .error .headCutShort
  | fuel + 1, s =>
    match readHead s with
    | .error fault => .error fault
    | .ok (head, rest) =>
      if head.status < 200 then readFinalHead fuel rest else .ok (head, rest)

/-! ### The body -/

/-- The values of the headers with this name. -/
def Head.values (head : Head) (name : String) : List (List UInt8) :=
  (head.headers.filter fun header => header.1 = bytesOf name).map (·.2)

/-- Where a body ends. -/
inductive Framing where
  | nothing
  | length (count : Nat)
  | chunks
  | untilClosed
deriving DecidableEq, Repr, Inhabited

/-- How the body of a response is framed. -/
def Head.framing (head : Head) : Except ResponseFault Framing :=
  if head.status = 204 ∨ head.status = 304 then .ok .nothing
  else
    match (head.values "transfer-encoding").getLast? with
    | some coding =>
      if coding.map lowerByte = bytesOf "chunked" then .ok .chunks else .ok .untilClosed
    | none =>
      match head.values "content-length" with
      | [] => .ok .untilClosed
      | first :: more =>
        match number? first with
        | some count =>
          if more.all fun other => number? other = some count then .ok (.length count)
          else .error .badHeader
        | none => .error .badHeader

/-- The value of a hexadecimal digit. -/
def hexValue? (byte : UInt8) : Option Nat :=
  if 0x30 ≤ byte ∧ byte ≤ 0x39 then some (byte.toNat - 0x30)
  else if 0x61 ≤ lowerByte byte ∧ lowerByte byte ≤ 0x66 then some ((lowerByte byte).toNat - 0x57)
  else none

/-- The length that a chunk announces, in front of any extension. -/
def chunkLength (line : List UInt8) : Except ResponseFault Nat :=
  match (trimBlanks (line.takeWhile (· ≠ 0x3B))).mapM hexValue? with
  | none => .error .badChunk
  | some [] => .error .badChunk
  | some digits => .ok (digits.foldl (fun n digit => n * 16 + digit) 0)

/-- Reads the line that announces a chunk, which the end of the bytes may cut short. -/
def readChunkLine (s : List UInt8) : Except ResponseFault (List UInt8 × List UInt8) :=
  match readLine s with
  | .ok line => .ok line
  | .error _ => .error .bodyCutShort

/-- Reads chunks up to the empty one.  Every chunk has at least one byte. -/
def readChunks : (fuel : Nat) → (before : List UInt8) → List UInt8 →
    Except ResponseFault (List UInt8)
  | 0, _, _ => .error .bodyCutShort
  | fuel + 1, before, s =>
    match readChunkLine s with
    | .error fault => .error fault
    | .ok (line, rest) =>
      match chunkLength line with
      | .error fault => .error fault
      | .ok 0 => .ok before
      | .ok count =>
        match rest.drop count with
        | 0x0D :: 0x0A :: next => readChunks fuel (before ++ rest.take count) next
        | _ => .error .bodyCutShort

/-- Reads a body. -/
def readBody (s : List UInt8) : Framing → Except ResponseFault (List UInt8)
  | .nothing => .ok []
  | .length count => if count ≤ s.length then .ok (s.take count) else .error .bodyCutShort
  | .chunks => readChunks (s.length + 1) [] s
  | .untilClosed => .ok s

/-- The status and the body of the response that the bytes of a connection hold. -/
def responseOf (s : List UInt8) : Except ResponseFault (Nat × List UInt8) := do
  let (head, rest) ← readFinalHead (s.length + 1) s
  let framing ← head.framing
  let body ← readBody rest framing
  .ok (head.status, body)

end ServiceWatch.Http
