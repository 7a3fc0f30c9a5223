import ServiceWatch.Text.Printable

/-!
# Quoted texts

A message that cites a text puts it between quotation marks.  Tab, line feed, carriage return and
the null character have short escapes, the quotation mark and the backslash are escaped by a
backslash, and every other character that is not printable is written by its code point.
-/

namespace ServiceWatch.Text

/-- The code point of a character in lower-case hexadecimal. -/
def hexCode (c : Char) : List Char :=
  Nat.toDigits 16 c.toNat

/-- The characters that stand for `c` inside a quoted text. -/
def quoteChar (c : Char) : List Char :=
  if c = '"' then ['\\', '"']
  else if c = '\\' then ['\\', '\\']
  else if c = '\t' then ['\\', 't']
  else if c = '\n' then ['\\', 'n']
  else if c = '\r' then ['\\', 'r']
  else if c = Char.ofNat 0 then ['\\', '0']
  else if isPrintable c then [c]
  else '\\' :: 'u' :: '{' :: (hexCode c ++ ['}'])

/-- The text between quotation marks. -/
def quoted (s : String) : String :=
  String.ofList ('"' :: (s.toList.flatMap quoteChar ++ ['"']))

end ServiceWatch.Text
