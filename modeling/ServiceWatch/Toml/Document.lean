import ServiceWatch.Toml.Value

/-!
# TOML documents

A document is read line by line.  The entries in front of the first header belong to the document
itself; those behind a header belong to the table that it opens, which is put in its place when the
next header or the end of the document closes it.  A header may be used once, unless it is in
double brackets, which opens one more table under the same name.
-/

namespace ServiceWatch.Toml

/-- A table that a header has opened. -/
structure Opened where
  path : List Key
  key : Key
  isRepeated : Bool
  /-- From the header to the end of the last value so far. -/
  span : Span
  entries : List Entry
deriving Inhabited

/-- What was read of a document: the entries in place, and the table that is open. -/
structure Progress where
  entries : List Entry
  opened : Option Opened
deriving Inhabited

/-- The span from the start of the first table to the end of the last. -/
def wholeSpan (elements : List (Span × List Entry)) : Option Span :=
  match elements.head?, elements.getLast? with
  | some first, some last => some ⟨first.1.start, last.1.stop⟩
  | _, _ => none

/-- Puts one more table among those that share a header. -/
def pushTable (opened : Opened) (body : Body) : Option (List Entry × Unit) :=
  match named? opened.key.name body.2 with
  | some (_, _, .tables elements) =>
    let elements := elements ++ [(opened.span, opened.entries)]
    some (replaceEntry opened.key.name (wholeSpan elements) (.tables elements) body.2, ())
  | _ => none

/-- The entries of the document with the open table in its place. -/
def Progress.close (progress : Progress) : Option (List Entry) :=
  match progress.opened with
  | none => some progress.entries
  | some opened =>
    let put :=
      if opened.isRepeated then pushTable opened
      else addEntry false (opened.key, some opened.span, .table .header opened.entries)
    (changeAt .passage put opened.path (.header, progress.entries)).map (·.1)

/-- Takes a table that longer headers passed through out of its parent, to be opened by a header
of its own; gives the entries that it has. -/
def takePassage (key : Key) (body : Body) : Option (List Entry × List Entry) :=
  match named? key.name body.2 with
  | none => some (body.2, [])
  | some (_, _, .table .passage inner) =>
    some (body.2.filter fun entry => entry.1.name != key.name, inner)
  | some _ => none

/-- Makes room for the tables that share a header. -/
def makeRoom (key : Key) (body : Body) : Option (List Entry × List Entry) :=
  match named? key.name body.2 with
  | none => some (body.2 ++ [(key, none, .tables [])], [])
  | some (_, _, .tables _) => some (body.2, [])
  | some _ => none

/-- Opens the table of a header. -/
def Progress.openTable (progress : Progress) (isRepeated : Bool) (path : List Key) (span : Span) :
    Option Progress := do
  let entries ← progress.close
  let key ← path.getLast?
  let prepare := if isRepeated then makeRoom key else takePassage key
  let (entries, inner) ← changeAt .passage prepare path.dropLast (.header, entries)
  some ⟨entries, some ⟨path.dropLast, key, isRepeated, span, inner⟩⟩

/-- Adds the value of a key to the table that is open. -/
def Progress.assign (progress : Progress) (path : List Key) (span : Span) (item : Item) :
    Option Progress :=
  match progress.opened with
  | none =>
    (Toml.assign path span item (.header, progress.entries)).map fun entries =>
      { progress with entries := entries }
  | some opened =>
    (Toml.assign path span item (.header, opened.entries)).map fun entries =>
      let span := ⟨opened.span.start, span.stop⟩
      { progress with opened := some { opened with span := span, entries := entries } }

/-- Reads a header, which begins the input. -/
def readHeader (progress : Progress) (s : Input) : Option (Progress × Input) :=
  match s with
  | '[' :: '[' :: rest =>
    match readKey rest with
    | some (path, ']' :: ']' :: rest) => do
      let progress ← progress.openTable true path (between s rest)
      some (progress, ← readLineEnd rest)
    | _ => none
  | '[' :: rest =>
    match readKey rest with
    | some (path, ']' :: rest) => do
      let progress ← progress.openTable false path (between s rest)
      some (progress, ← readLineEnd rest)
    | _ => none
  | _ => none

/-- Reads a key and its value. -/
def readEntry (progress : Progress) (s : Input) : Option (Progress × Input) :=
  match readKey s with
  | some (path, '=' :: s) => do
    let s := skipBlanks s
    let (item, rest) ← readValue s
    let progress ← progress.assign path (between s rest) item
    some (progress, ← readLineEnd rest)
  | _ => none

/-- Reads a line. -/
def readLine (progress : Progress) (s : Input) : Option (Progress × Input) :=
  match s with
  | '#' :: _ => (readLineEnd s).map fun s => (progress, s)
  | '\n' :: _ => (readNewLine s).map fun s => (progress, s)
  | '\r' :: _ => (readNewLine s).map fun s => (progress, s)
  | '[' :: _ => readHeader progress s
  | _ => readEntry progress s

/-- Reads lines up to the end of the document.  A line has at least one character. -/
def readLines : (fuel : Nat) → Progress → Input → Option Progress
  | 0, _, _ => none
  | fuel + 1, progress, s =>
    match skipBlanks s with
    | [] => some progress
    | s =>
      match readLine progress s with
      | some (progress, s) => readLines fuel progress s
      | none => none

/-- A byte order mark at the front is no part of the document. -/
def dropMark : Input → Input
  | c :: s => if c.toNat = 0xFEFF then s else c :: s
  | [] => []

/-- The entries of a document, if it breaks no rule. -/
def entries? (document : Input) : Option (List Entry) := do
  let s := dropMark document
  let progress ← readLines (s.length + 1) ⟨[], none⟩ s
  progress.close

end ServiceWatch.Toml
