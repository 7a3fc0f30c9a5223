import ServiceWatch.Text.Utf8

/-!
# URLs

A URL is a scheme, an authority and a target, that is the path with the query; any of them may be
absent, but a scheme needs an authority.  A text without a scheme is an authority alone, or a target
alone when it begins with a slash.  The target ends at a `#`, and what follows is dropped.

Everything is read byte by byte.  Bytes outside ASCII may stand in a target only, and the control
characters of ASCII, `DEL` among them, nowhere in front of the `#`.
-/

namespace ServiceWatch.Http

/-- Why a text is no URL. -/
inductive UrlFault where
  | empty
  | tooLong
  | badCharacter
  | badAuthority
  | schemeTooLong
  | badFormat
deriving DecidableEq, Repr, Inhabited

/-- The text of a fault. -/
def UrlFault.message : UrlFault → String
  | .empty => "empty string"
  | .tooLong => "uri too long"
  | .badCharacter => "invalid uri character"
  | .badAuthority => "invalid authority"
  | .schemeTooLong => "scheme too long"
  | .badFormat => "invalid format"

/-- A URL. -/
structure Url where
  /-- In the case in which it was written, but for `http` and `https`. -/
  scheme : Option (List UInt8)
  authority : List UInt8
  target : List UInt8
deriving DecidableEq, Repr, Inhabited

/-- The bytes of a text. -/
def bytesOf (s : String) : List UInt8 :=
  Text.Utf8.encode s.toList

/-- The lower-case form of an ASCII letter. -/
def lowerByte (byte : UInt8) : UInt8 :=
  if 0x41 ≤ byte ∧ byte ≤ 0x5A then byte + 0x20 else byte

/-- A letter or a digit. -/
def isAlphanumeric (byte : UInt8) : Bool :=
  (0x30 ≤ byte && byte ≤ 0x39) || (0x41 ≤ byte && byte ≤ 0x5A) || (0x61 ≤ byte && byte ≤ 0x7A)

/-- A byte of a scheme. -/
def isSchemeByte (byte : UInt8) : Bool :=
  isAlphanumeric byte || (bytesOf "+-.~").contains byte

/-- A byte that may stand in front of the first slash of a URL, its scheme apart. -/
def isAuthorityByte (byte : UInt8) : Bool :=
  isAlphanumeric byte || (bytesOf "!$&'()*+,-.:;=@[]_~").contains byte

/-- A byte that ends an authority. -/
def endsAuthority (byte : UInt8) : Bool :=
  (bytesOf "/?#").contains byte

/-- A byte of a path. -/
def isPathByte (byte : UInt8) : Bool :=
  byte = 0x21 || byte = 0x22 || (0x24 ≤ byte && byte ≤ 0x3B) || byte = 0x3D ||
    (0x40 ≤ byte && byte ≤ 0x5F) || (0x61 ≤ byte && byte ≠ 0x7F)

/-- A byte of a query. -/
def isQueryByte (byte : UInt8) : Bool :=
  byte = 0x21 || (0x24 ≤ byte && byte ≤ 0x3B) || byte = 0x3D || (0x3F ≤ byte && byte ≠ 0x7F)

/-! ### Schemes -/

/-- The greatest number of bytes in a scheme. -/
def schemeLimit : Nat := 64

/-- Whether a text begins with this one, in any case. -/
def startsWith (start : String) (s : List UInt8) : Bool :=
  (bytesOf start).isPrefixOf (s.map lowerByte)

/-- The scheme of a URL, if it has one, and what follows the slashes behind it. -/
def splitScheme (s : List UInt8) : Except UrlFault (Option (List UInt8) × List UInt8) :=
  if startsWith "http://" s then .ok (some (bytesOf "http"), s.drop 7)
  else if startsWith "https://" s then .ok (some (bytesOf "https"), s.drop 8)
  else
    let scheme := s.takeWhile isSchemeByte
    let rest := s.drop scheme.length
    if 3 < s.length ∧ (bytesOf "://").isPrefixOf rest then
      if schemeLimit < scheme.length then .error .schemeTooLong
      else .ok (some scheme, rest.drop 3)
    else .ok (none, s)

/-! ### Authorities -/

/-- What was seen of an authority so far. -/
structure AuthorityScan where
  /-- Colons since the last `@` or closing bracket. -/
  colons : Nat := 0
  isOpened : Bool := false
  isClosed : Bool := false
  /-- A percent sign since the last `@` or closing bracket. -/
  hasPercent : Bool := false
  /-- The last byte was an `@`. -/
  endsInAt : Bool := false
deriving DecidableEq, Repr, Inhabited

/-- The greatest number of colons, which is that of an address with a port number. -/
def colonLimit : Nat := 8

/-- Goes over one byte of an authority. -/
def AuthorityScan.step (scan : AuthorityScan) (byte : UInt8) : Except UrlFault AuthorityScan :=
  let next := { scan with endsInAt := byte == 0x40 }
  if byte = 0x3A then
    if colonLimit ≤ scan.colons then .error .badAuthority
    else .ok { next with colons := scan.colons + 1 }
  else if byte = 0x5B then
    if scan.hasPercent || scan.isOpened then .error .badAuthority
    else .ok { next with isOpened := true }
  else if byte = 0x5D then
    if !scan.isOpened || scan.isClosed then .error .badAuthority
    else .ok { next with isClosed := true, colons := 0, hasPercent := false }
  else if byte = 0x40 then .ok { next with colons := 0, hasPercent := false }
  else if byte = 0x25 then .ok { next with hasPercent := true }
  else if isAuthorityByte byte then .ok next
  else .error .badCharacter

/-- Whether an authority may end here. -/
def AuthorityScan.isWhole (scan : AuthorityScan) : Bool :=
  scan.isOpened == scan.isClosed && decide (scan.colons ≤ 1) && !scan.endsInAt && !scan.hasPercent

/-- The authority at the front of a text, and the rest of the text. -/
def splitAuthority (s : List UInt8) : Except UrlFault (List UInt8 × List UInt8) := do
  let authority := s.takeWhile fun byte => !endsAuthority byte
  let scan ← authority.foldlM AuthorityScan.step {}
  if scan.isWhole then .ok (authority, s.drop authority.length) else .error .badAuthority

/-! ### Targets -/

/-- The target that a text spells. -/
def targetOf (s : List UInt8) : Except UrlFault (List UInt8) :=
  let path := s.takeWhile isPathByte
  match s.drop path.length with
  | [] => .ok path
  | 0x23 :: _ => .ok path
  | 0x3F :: rest =>
    let query := rest.takeWhile isQueryByte
    match rest.drop query.length with
    | [] => .ok (path ++ 0x3F :: query)
    | 0x23 :: _ => .ok (path ++ 0x3F :: query)
    | _ => .error .badCharacter
  | _ => .error .badCharacter

/-! ### Whole URLs -/

/-- The greatest number of bytes in a URL. -/
def urlLimit : Nat := 65534

/-- The URL of a text that has a scheme or an authority. -/
def fullUrl (s : List UInt8) : Except UrlFault Url := do
  let (scheme, rest) ← splitScheme s
  if rest = [] then .error .empty
  else
    let (authority, rest) ← splitAuthority rest
    match scheme with
    | none => if rest = [] then .ok ⟨none, authority, []⟩ else .error .badFormat
    | some scheme =>
      if authority = [] then .error .badFormat
      else
        let target ← targetOf rest
        .ok ⟨some scheme, authority, target⟩

/-- The URL that a text spells. -/
def Url.ofBytes (s : List UInt8) : Except UrlFault Url :=
  if urlLimit < s.length then .error .tooLong
  else
    match s with
    | [] => .error .empty
    | [0x2A] => .ok ⟨none, [], s⟩
    | 0x2F :: _ => (targetOf s).map fun target => ⟨none, [], target⟩
    | [byte] => if endsAuthority byte then .error .badCharacter else fullUrl [byte]
    | s => fullUrl s

namespace Url

/-- The authority without the user in front of the host. -/
def hostAndPort (url : Url) : List UInt8 :=
  (url.authority.reverse.takeWhile (· ≠ 0x40)).reverse

/-- The host, without the brackets around an address. -/
def host (url : Url) : List UInt8 :=
  match url.hostAndPort with
  | 0x5B :: rest => rest.takeWhile (· ≠ 0x5D)
  | rest => rest.takeWhile (· ≠ 0x3A)

/-- What stands behind the last colon of the authority; a plus may lead the digits of a number. -/
def portDigits (url : Url) : List UInt8 :=
  match (url.authority.reverse.takeWhile (· ≠ 0x3A)).reverse with
  | 0x2B :: digits => digits
  | digits => digits

/-- The port number; without one that can be read it is 80. -/
def portNumber (url : Url) : Nat :=
  let digits := url.portDigits
  if url.authority.contains 0x3A && !digits.isEmpty &&
      digits.all fun byte => 0x30 ≤ byte && byte ≤ 0x39 then
    let n := digits.foldl (fun n byte => n * 10 + (byte.toNat - 0x30)) 0
    if n < 0x10000 then n else 80
  else 80

end Url

end ServiceWatch.Http
