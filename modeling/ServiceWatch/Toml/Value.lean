import ServiceWatch.Toml.Number

/-!
# Values and inline tables of a TOML document

Arrays may spread over lines and end in a comma; tables in braces may do neither.  Tables in braces
grow by dotted keys like other tables, but nothing can be added once they are closed.
-/

namespace ServiceWatch.Toml

/-- Reads a word. -/
def readWord (word : List Char) (s : Input) : Option Input :=
  if word.isPrefixOf s then some (s.drop word.length) else none

/-- A table's origin and entries, as a key path is followed into it. -/
abbrev Body := Origin × List Entry

/-- The entries with those of one key changed; there is such a key. -/
def replaceEntry (name : String) (span : Option Span) (item : Item) : List Entry → List Entry
  | [] => []
  | entry :: rest =>
    if entry.1.name == name then (entry.1, span, item) :: rest
    else entry :: replaceEntry name span item rest

/-- The entry of a key. -/
def named? (name : String) (entries : List Entry) : Option Entry :=
  entries.find? fun entry => entry.1.name == name

/-- Changes the table that a path leads to, and gives what the change gives; tables on the way that
are not there yet come about with the origin `passing`.  A dotted key may not pass through a table
that has a header of its own.  Of tables in double brackets the last one is entered. -/
def changeAt {α : Type} (passing : Origin) (change : Body → Option (List Entry × α)) :
    List Key → Body → Option (List Entry × α)
  | [], body => change body
  | key :: path, (_, entries) =>
    match named? key.name entries with
    | none => do
      let (inner, result) ← changeAt passing change path (passing, [])
      some (entries ++ [(key, none, .table passing inner)], result)
    | some (_, span, .table origin inner) =>
      if origin = .braces ∨ (passing = .dots ∧ origin = .header) then none
      else do
        let (inner, result) ← changeAt passing change path (origin, inner)
        some (replaceEntry key.name span (.table origin inner) entries, result)
    | some (_, span, .tables elements) =>
      match elements.getLast? with
      | none => none
      | some (place, last) => do
        let (last, result) ← changeAt passing change path (.header, last)
        some
          (replaceEntry key.name span (.tables (elements.dropLast ++ [(place, last)])) entries,
            result)
    | some _ => none

/-- Adds an entry to a table, which must not have one of that name.  The table that a dotted key
leads to has to be one that dotted keys made. -/
def addEntry (isDotted : Bool) (entry : Entry) (body : Body) : Option (List Entry × Unit) :=
  if isDotted && body.1 != .dots then none
  else if (named? entry.1.name body.2).isSome then none
  else some (body.2 ++ [entry], ())

/-- Adds the value of a key to a table. -/
def assign (path : List Key) (span : Span) (item : Item) (body : Body) : Option (List Entry) := do
  let last ← path.getLast?
  let path := path.dropLast
  let (entries, _) ← changeAt .dots (addEntry (!path.isEmpty) (last, some span, item)) path body
  some entries

mutual

/-- Reads a value.  `depth` is how many more arrays and tables may be opened inside each other. -/
def readValueWith : (fuel depth : Nat) → Input → Option (Item × Input)
  | 0, _, _ => none
  | fuel + 1, depth, s =>
    match s with
    | [] => none
    | c :: rest =>
      if c = '"' ∨ c = '\'' then (readText s).map fun (text, s) => (.text text, s)
      else if c = '[' then
        if depth = 0 then none else readArrayWith fuel (depth - 1) [] rest
      else if c = '{' then
        if depth = 0 then none else readBracesWith fuel (depth - 1) true [] rest
      else if c = 't' then
        (readWord ['t', 'r', 'u', 'e'] s).map fun s => (.boolean true, s)
      else if c = 'f' then
        (readWord ['f', 'a', 'l', 's', 'e'] s).map fun s => (.boolean false, s)
      else if c = '+' ∨ c = '-' ∨ isDigit c then readNumberOrMoment s
      else readSpecial false s

/-- Reads the elements of an array and its closing bracket. -/
def readArrayWith :
    (fuel depth : Nat) → (before : List Item) → Input → Option (Item × Input)
  | 0, _, _, _ => none
  | fuel + 1, depth, before, s =>
    match skipComments s with
    | ']' :: s => some (.array before.reverse, s)
    | s =>
      match readValueWith fuel depth s with
      | none => none
      | some (item, s) =>
        match skipComments s with
        | ',' :: s => readArrayWith fuel depth (item :: before) s
        | ']' :: s => some (.array (item :: before).reverse, s)
        | _ => none

/-- Reads the entries of a table in braces and its closing brace. -/
def readBracesWith :
    (fuel depth : Nat) → (first : Bool) → List Entry → Input → Option (Item × Input)
  | 0, _, _, _, _ => none
  | fuel + 1, depth, first, entries, s =>
    match skipBlanks s, first with
    | '}' :: s, true => some (.table .braces entries, s)
    | s, _ =>
      match readKey s with
      | some (path, '=' :: s) =>
        let s := skipBlanks s
        match readValueWith fuel depth s with
        | none => none
        | some (item, rest) =>
          match assign path (between s rest) item (.header, entries) with
          | none => none
          | some entries =>
            match skipBlanks rest with
            | ',' :: s => readBracesWith fuel depth false entries s
            | '}' :: s => some (.table .braces entries, s)
            | _ => none
      | _ => none

end

/-- Reads a value.  No call is more than two calls away from one that reads a character. -/
def readValue (s : Input) : Option (Item × Input) :=
  readValueWith (2 * s.length + 4) (depthLimit - 1) s

end ServiceWatch.Toml
