/-!
# Cutting a text at separators

A text with separators in it is cut into the pieces before, between and behind them, which may be
empty: there is always one more piece than there are separators.
-/

namespace ServiceWatch.Text

/-- The pieces between the characters that are separators. -/
def splitWhere (isSeparator : Char → Bool) : List Char → List (List Char)
  | [] => [[]]
  | c :: cs =>
    if isSeparator c then
      [] :: splitWhere isSeparator cs
    else
      match splitWhere isSeparator cs with
      | [] => [[c]]
      | piece :: pieces => (c :: piece) :: pieces

/-- The pieces between the occurrences of one character. -/
def splitOn (separator : Char) (cs : List Char) : List (List Char) :=
  splitWhere (· == separator) cs

end ServiceWatch.Text
