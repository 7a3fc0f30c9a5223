import ServiceWatch.Text.Split

/-!
# Blanks, trimming and blank-separated tokens

A character is blank when it has the Unicode property `White_Space`.  Two things are built on it:
`trim`, which drops the blanks at both ends of a text, and `tokens`, which splits a text at its
runs of blanks.  `tokens` never yields an empty token, so a text of blanks alone has none.
-/

namespace ServiceWatch.Text

/-- The characters with the Unicode property `White_Space`. -/
def isBlank (c : Char) : Bool :=
  let n := c.toNat
  (0x9 ≤ n && n ≤ 0xD) || n == 0x20 || n == 0x85 || n == 0xA0 || n == 0x1680 ||
    (0x2000 ≤ n && n ≤ 0x200A) || n == 0x2028 || n == 0x2029 || n == 0x202F || n == 0x205F ||
    n == 0x3000

/-- The characters without the blanks that stand first. -/
def trimStart (cs : List Char) : List Char :=
  cs.dropWhile isBlank

/-- The characters without the blanks that stand last. -/
def trimEnd (cs : List Char) : List Char :=
  (cs.reverse.dropWhile isBlank).reverse

/-- The text without the blanks at its two ends. -/
def trim (s : String) : String :=
  String.ofList (trimEnd (trimStart s.toList))

/-- Whether every character is blank; the empty text is. -/
def isBlankText (s : String) : Bool :=
  s.toList.all isBlank

/-- The maximal runs of characters that are not blank, in order. -/
def tokens (cs : List Char) : List (List Char) :=
  (splitWhere isBlank cs).filter fun piece => !piece.isEmpty

end ServiceWatch.Text
