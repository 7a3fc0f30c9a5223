import ServiceWatch.Binary64.Shortest
import ServiceWatch.Text.Line
import ServiceWatch.Toml.Item

/-!
# Why a TOML document is refused

A document that breaks a rule of the format is refused without a reason.  An item of the wrong kind
is shown: the line that it begins on, with the part of it that stands on this line marked below.
-/

namespace ServiceWatch.Toml

/-- The text of a magnitude: all its digits, with a point. -/
def magnitudeText (rank : Nat) : List Char :=
  if rank = 0 then ['0', '.', '0'] else (Binary64.shortest rank).positional

/-- The text of a floating-point number in a message. -/
def floatText : Binary64 → String
  | .nan => "NaN"
  | .number negative rank =>
    (if negative then "-" else "") ++
      if rank.val < infinityRank then String.ofList (magnitudeText rank.val) else "inf"

/-- Why a document is refused. -/
inductive Fault where
  /-- It breaks a rule of the format. -/
  | malformed
  /-- The item of an entry does not fit. -/
  | mismatch (span : Span) (mismatch : Mismatch)
deriving DecidableEq, Repr, Inhabited

/-- The place of a span in a document: the number of its line, the number of characters in front of
it on the line, the line, and how many bytes of the span can be on it. -/
structure Excerpt where
  number : Nat
  column : Nat
  line : List Char
  marked : Nat
deriving DecidableEq, Repr, Inhabited

/-- The number of bytes of a text. -/
def byteCount (cs : List Char) : Nat :=
  (String.ofList cs).utf8ByteSize

/-- The excerpt of a document for a span. -/
def Excerpt.ofSpan (document : Input) (span : Span) : Excerpt :=
  let before := document.take (document.length - span.start)
  let rest := document.drop (document.length - span.start)
  let head := (before.reverse.takeWhile (· != '\n')).reverse
  let line := head ++ rest.takeWhile (· != '\n')
  { number := before.count '\n' + 1
    column := head.length
    line := line
    marked := min (byteCount (rest.take (span.start - span.stop))) (byteCount line - head.length) }

/-- The lines that show an excerpt: where it is, the line, and the marks below. -/
def Excerpt.text (excerpt : Excerpt) : List Char :=
  let number := (toString excerpt.number).toList
  let margin := List.replicate (number.length + 1) ' ' ++ ['|']
  "TOML parse error at line ".toList ++ number ++ ", column ".toList ++
    (toString (excerpt.column + 1)).toList ++ '\n' ::
    (margin ++ '\n' :: (number ++ [' ', '|', ' '] ++ excerpt.line ++ '\n' ::
      (margin ++ List.replicate (excerpt.column + 1) ' ' ++
        List.replicate (max 1 excerpt.marked) '^' ++ ['\n'])))

/-- The text of a fault. -/
def Fault.message (document : Input) : Fault → String
  | .malformed => "TOML parse error\n"
  | .mismatch span found =>
    String.ofList (Excerpt.ofSpan document span).text ++ found.describe floatText ++ "\n"

end ServiceWatch.Toml
