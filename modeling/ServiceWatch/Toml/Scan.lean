import ServiceWatch.Toml.Item

/-!
# Blanks, line ends, comments and texts of a TOML document

A reader gives what it read with what is then left, or nothing when the document breaks a rule.
Why it does is not told: a document that breaks a rule is refused as a whole.
-/

namespace ServiceWatch.Toml

/-- A blank inside a line. -/
def isBlank (c : Char) : Bool :=
  c = ' ' || c = '\t'

/-- The input behind the blanks at its front. -/
def skipBlanks (s : Input) : Input :=
  s.dropWhile isBlank

/-- A decimal digit. -/
def isDigit (c : Char) : Bool :=
  '0' ≤ c && c ≤ '9'

/-- The value of a hexadecimal digit. -/
def hexDigit? (c : Char) : Option Nat :=
  if isDigit c then some (c.toNat - 48)
  else if 'a' ≤ c ∧ c ≤ 'f' then some (c.toNat - 87)
  else if 'A' ≤ c ∧ c ≤ 'F' then some (c.toNat - 55)
  else none

/-- A character that may stand in a comment or a text: anything but a control character, the tab
apart. -/
def isPlain (c : Char) : Bool :=
  c = '\t' || (0x20 ≤ c.toNat && c.toNat ≠ 0x7F)

/-- Reads a line end. -/
def readNewLine : Input → Option Input
  | '\n' :: s => some s
  | '\r' :: '\n' :: s => some s
  | _ => none

/-- Reads the blanks and the comment that may stand at the end of a line, and the line end or the
end of the document. -/
def readLineEnd (s : Input) : Option Input :=
  let rest :=
    match skipBlanks s with
    | '#' :: s => s.dropWhile isPlain
    | s => s
  match rest with
  | [] => some []
  | rest => readNewLine rest

/-- The input behind blanks and line ends. -/
def skipLines : Input → Input
  | '\r' :: '\n' :: s => skipLines s
  | c :: s => if isBlank c || c = '\n' then skipLines s else c :: s
  | [] => []

/-- The input behind blanks, line ends and comments.  `inComment` tells that a comment has
begun. -/
def skipCommentsFrom : (inComment : Bool) → Input → Input
  | _, [] => []
  | true, '\r' :: '\n' :: s => skipCommentsFrom false s
  | true, c :: s =>
    if isPlain c then skipCommentsFrom true s
    else if c = '\n' then skipCommentsFrom false s
    else c :: s
  | false, '\r' :: '\n' :: s => skipCommentsFrom false s
  | false, c :: s =>
    if isBlank c || c = '\n' then skipCommentsFrom false s
    else if c = '#' then skipCommentsFrom true s
    else c :: s

/-- The input behind blanks, line ends and comments. -/
def skipComments (s : Input) : Input :=
  skipCommentsFrom false s

/-! ### Texts -/

/-- The character that a one-letter escape stands for. -/
def letterEscape? (c : Char) : Option Char :=
  if c = '"' ∨ c = '\\' then some c
  else if c = 'b' then some (Char.ofNat 0x8)
  else if c = 't' then some '\t'
  else if c = 'n' then some '\n'
  else if c = 'f' then some (Char.ofNat 0xC)
  else if c = 'r' then some '\r'
  else none

/-- The character with the code that these hexadecimal digits spell. -/
def codePoint? (digits : List Char) : Option Char := do
  let values ← digits.mapM hexDigit?
  let n := values.foldl (fun n d => n * 16 + d) 0
  if n.isValidChar then some (Char.ofNat n) else none

/-- Reads an escape behind its backslash. -/
def readEscape : Input → Option (Char × Input)
  | 'u' :: a :: b :: c :: d :: s => (codePoint? [a, b, c, d]).map fun x => (x, s)
  | 'U' :: a :: b :: c :: d :: e :: f :: g :: h :: s =>
    (codePoint? [a, b, c, d, e, f, g, h]).map fun x => (x, s)
  | c :: s => (letterEscape? c).map fun x => (x, s)
  | [] => none

/-- Reads a text in quotation marks behind the first of them.  `before` is what was read, in
reverse; one unit of fuel for every character suffices. -/
def readQuotedFrom (before : List Char) : (fuel : Nat) → Input → Option (String × Input)
  | 0, _ => none
  | _ + 1, [] => none
  | fuel + 1, c :: s =>
    if c = '"' then some (String.ofList before.reverse, s)
    else if c = '\\' then
      match readEscape s with
      | some (x, s) => readQuotedFrom (x :: before) fuel s
      | none => none
    else if isPlain c then readQuotedFrom (c :: before) fuel s
    else none

/-- Whether a backslash in front of this input ends its line. -/
def continues (s : Input) : Bool :=
  (readNewLine (skipBlanks s)).isSome

/-- How many quotation marks of this kind stand at the front. -/
def countQuotes (quote : Char) (s : Input) : Nat :=
  (s.takeWhile (· == quote)).length

/-- Reads a text in triple quotation marks behind the first three.  Up to two marks right before
the last three belong to the text.  A backslash at the end of a line takes the line end and all
blanks and line ends behind it away. -/
def readLongQuotedFrom (before : List Char) : (fuel : Nat) → Input → Option (String × Input)
  | 0, _ => none
  | _ + 1, [] => none
  | fuel + 1, c :: s =>
    if c = '"' then
      let marks := countQuotes '"' (c :: s)
      if 3 ≤ marks then
        let own := min 2 (marks - 3)
        some (String.ofList (List.replicate own '"' ++ before).reverse, s.drop (own + 2))
      else readLongQuotedFrom ('"' :: before) fuel s
    else if c = '\\' then
      if continues s then readLongQuotedFrom before fuel (skipLines s)
      else
        match readEscape s with
        | some (x, s) => readLongQuotedFrom (x :: before) fuel s
        | none => none
    else if isPlain c then readLongQuotedFrom (c :: before) fuel s
    else
      match readNewLine (c :: s) with
      | some s => readLongQuotedFrom ('\n' :: before) fuel s
      | none => none

/-- Reads a text in apostrophes behind the first of them; nothing is escaped there. -/
def readLiteralFrom (before : List Char) : Input → Option (String × Input)
  | [] => none
  | c :: s =>
    if c = '\'' then some (String.ofList before.reverse, s)
    else if isPlain c then readLiteralFrom (c :: before) s
    else none

/-- Reads a text in triple apostrophes behind the first three. -/
def readLongLiteralFrom (before : List Char) : Input → Option (String × Input)
  | [] => none
  | '\r' :: '\n' :: s => readLongLiteralFrom ('\n' :: before) s
  | c :: s =>
    if c = '\'' then
      let marks := countQuotes '\'' (c :: s)
      if 3 ≤ marks then
        let own := min 2 (marks - 3)
        some (String.ofList (List.replicate own '\'' ++ before).reverse, s.drop (own + 2))
      else readLongLiteralFrom ('\'' :: before) s
    else if isPlain c || c = '\n' then readLongLiteralFrom (c :: before) s
    else none

/-- The input without a line end at its front. -/
def dropNewLine (s : Input) : Input :=
  (readNewLine s).getD s

/-- Reads a text on one line. -/
def readShortText : Input → Option (String × Input)
  | '"' :: s => readQuotedFrom [] (s.length + 1) s
  | '\'' :: s => readLiteralFrom [] s
  | _ => none

/-- Reads a text of any of the four kinds. -/
def readText : Input → Option (String × Input)
  | '"' :: '"' :: '"' :: s =>
    let s := dropNewLine s
    readLongQuotedFrom [] (s.length + 1) s
  | '\'' :: '\'' :: '\'' :: s => readLongLiteralFrom [] (dropNewLine s)
  | s => readShortText s

/-! ### Keys -/

/-- A character of a key without quotation marks. -/
def isKeyChar (c : Char) : Bool :=
  isDigit c || ('a' ≤ c && c ≤ 'z') || ('A' ≤ c && c ≤ 'Z') || c = '-' || c = '_'

/-- The part of the document between two places. -/
def between (s rest : Input) : Span :=
  ⟨s.length, rest.length⟩

/-- Reads one part of a key. -/
def readKeyPart (s : Input) : Option (Key × Input) :=
  match s with
  | [] => none
  | c :: _ =>
    if c = '"' ∨ c = '\'' then
      (readShortText s).map fun (name, rest) => (⟨name, between s rest⟩, rest)
    else
      let name := s.takeWhile isKeyChar
      if name.isEmpty then none
      else
        let rest := s.dropWhile isKeyChar
        some (⟨String.ofList name, between s rest⟩, rest)

/-- Reads the parts of a key, with dots between them, and the blanks around them. -/
def readKeyFrom (before : List Key) : (fuel : Nat) → Input → Option (List Key × Input)
  | 0, _ => none
  | fuel + 1, s =>
    match readKeyPart (skipBlanks s) with
    | none => none
    | some (part, s) =>
      match skipBlanks s with
      | '.' :: s => readKeyFrom (part :: before) fuel s
      | s => some ((part :: before).reverse, s)

/-- The number of parts from which on a key is refused, and of nested values as well. -/
def depthLimit : Nat := 80

/-- Reads a key. -/
def readKey (s : Input) : Option (List Key × Input) := do
  let (key, s) ← readKeyFrom [] (s.length + 1) s
  if key.length < depthLimit then some (key, s) else none

end ServiceWatch.Toml
