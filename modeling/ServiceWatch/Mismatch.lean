import ServiceWatch.Binary64.Basic
import ServiceWatch.Text.Quoted

/-!
# Values of the wrong kind

A settings or state document may hold a value of another kind than its place asks for, or one that
is out of the range of its place.  `Mismatch` says what was found and what was expected; its text
is the same for every document format but for the way a format writes its floating-point numbers.
-/

namespace ServiceWatch

/-- The value that was found. -/
inductive Found where
  | null
  | boolean (value : Bool)
  | integer (value : Int)
  | float (value : Binary64)
  | text (value : String)
  | sequence
  | map
deriving DecidableEq, Repr, Inhabited

namespace Found

/-- The found value in a message, given how the format writes its floating-point numbers. -/
def describe (floatText : Binary64 → String) : Found → String
  | .null => "null"
  | .boolean value => "boolean `" ++ (if value then "true" else "false") ++ "`"
  | .integer value => "integer `" ++ toString value ++ "`"
  | .float value => "floating point `" ++ floatText value ++ "`"
  | .text value => "string " ++ Text.quoted value
  | .sequence => "sequence"
  | .map => "map"

end Found

/-- A value that does not fit its place: it is of another kind, or of the right kind but out of
range. -/
inductive Mismatch where
  | kind (found : Found) (expected : String)
  | range (found : Found) (expected : String)
deriving DecidableEq, Repr, Inhabited

namespace Mismatch

/-- The text of the mismatch, given how the format writes its floating-point numbers. -/
def describe (floatText : Binary64 → String) : Mismatch → String
  | .kind found expected =>
    "invalid type: " ++ found.describe floatText ++ ", expected " ++ expected
  | .range found expected =>
    "invalid value: " ++ found.describe floatText ++ ", expected " ++ expected

end Mismatch

end ServiceWatch
