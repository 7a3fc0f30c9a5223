import ServiceWatch.Text.Line

/-!
# Paths

A path is a text whose segments stand between slashes.  It begins with a *mark*: a slash when it is
absolute, a dot when its first segment is `.`, and nothing otherwise.  Behind the mark, empty
segments and `.` stand for nothing, so two texts with the same `parts` are the same path.

The parent, the last name and a sibling of a path are texts again, cut from the text of the path
without rewriting the rest of it.
-/

namespace ServiceWatch.Path

/-- A step of a path. -/
inductive Part where
  | root
  /-- A leading `.`. -/
  | here
  /-- A segment `..`. -/
  | up
  | name (text : List Char)
deriving DecidableEq, Repr, Inhabited

/-- A path cut into its mark and the segments behind it, the last segment first. -/
structure Cut where
  mark : List Char
  segments : List (List Char)
deriving DecidableEq, Repr, Inhabited

/-- The segments of a text, the last one first. -/
def backSegments (cs : List Char) : List (List Char) :=
  (Text.splitOn '/' cs).reverse

/-- Cuts a path. -/
def cut : List Char → Cut
  | '/' :: rest => ⟨['/'], backSegments rest⟩
  | ['.'] => ⟨['.'], []⟩
  | '.' :: '/' :: rest => ⟨['.'], backSegments ('/' :: rest)⟩
  | rest => ⟨[], backSegments rest⟩

/-- Whether a segment behind the mark stands for nothing. -/
def isIdle (segment : List Char) : Bool :=
  segment = [] || segment = ['.']

/-- The segments, the last one first, without those at the end that stand for nothing. -/
def dropIdle (segments : List (List Char)) : List (List Char) :=
  segments.dropWhile isIdle

/-- The text of a mark and segments, the last one first. -/
def Cut.text (c : Cut) : List Char :=
  c.mark ++ ['/'].intercalate c.segments.reverse

/-- What a mark stands for. -/
def markPart (mark : List Char) : List Part :=
  if mark = ['/'] then [.root] else if mark = ['.'] then [.here] else []

/-- What a segment stands for. -/
def segmentPart (segment : List Char) : Part :=
  if segment = ['.', '.'] then .up else .name segment

/-- The steps of a path. -/
def parts (path : String) : List Part :=
  let c := cut path.toList
  markPart c.mark ++ (c.segments.reverse.filter fun s => !isIdle s).map segmentPart

/-- Whether two texts are the same path. -/
def isSame (a b : String) : Bool :=
  parts a = parts b

/-- The path without its last step; the root and the empty path have none. -/
def parent? (path : String) : Option String :=
  let c := cut path.toList
  match dropIdle c.segments with
  | _ :: before => some (String.ofList { c with segments := dropIdle before }.text)
  | [] => if c.mark = ['.'] then some "" else none

/-- The last step of a path, if it is a name. -/
def name? (path : String) : Option String :=
  match dropIdle (cut path.toList).segments with
  | last :: _ => if last = ['.', '.'] then none else some (String.ofList last)
  | [] => none

/-- The path with a name behind it. -/
def append (path name : String) : String :=
  if path = "" then name
  else if path.toList.getLast? = some '/' then path ++ name
  else path ++ "/" ++ name

/-- The path with this name in place of its last one, or behind it when its last step is no
name. -/
def withName (path name : String) : String :=
  match name? path with
  | some _ => append ((parent? path).getD "") name
  | none => append path name

/-- The directories that a mark and segments, the last one first, pass through, the innermost
first. -/
def directories (mark : List Char) : List (List Char) → List (List Char)
  | [] => if mark = ['.'] then [mark] else []
  | segment :: before =>
    if isIdle segment then directories mark before
    else Cut.text ⟨mark, segment :: before⟩ :: directories mark before

/-- The path itself and the paths that lead to it, the longest first; the root is not among them. -/
def climb (path : String) : List String :=
  let c := cut path.toList
  (directories c.mark c.segments).map String.ofList

end ServiceWatch.Path
