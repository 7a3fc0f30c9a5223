import ServiceWatch.Mismatch

/-!
# Items of a TOML document

An item is a value or a table.  Keys and items know the part of the document that they were read
from, as long as there is one part that holds them: a table that came about only because a longer
key or header passes through it has none.
-/

namespace ServiceWatch.Toml

/-- What is left to read of a document. -/
abbrev Input := List Char

/-- A part of a document: how many characters were left to read where it starts, and where it
stops. -/
structure Span where
  start : Nat
  stop : Nat
deriving DecidableEq, Repr, Inhabited

/-- A key and where it stands. -/
structure Key where
  name : String
  span : Span
deriving DecidableEq, Repr, Inhabited

/-- How a table came about. -/
inductive Origin where
  /-- Written between braces, so nothing can be added to it. -/
  | braces
  /-- Named by a header, or the document itself. -/
  | header
  /-- Passed through by a longer header. -/
  | passage
  /-- Passed through by a dotted key. -/
  | dots
deriving DecidableEq, Repr, Inhabited

/-- A value or a table.  The entries of a table keep their order, each with its key and its
span. -/
inductive Item where
  | text (value : String)
  | integer (value : Int)
  | float (value : Binary64)
  | boolean (value : Bool)
  /-- A date, a time or both, as written. -/
  | moment (written : String)
  | array (elements : List Item)
  | table (origin : Origin) (entries : List (Key × Option Span × Item))
  /-- The tables that share a header in double brackets. -/
  | tables (elements : List (Span × List (Key × Option Span × Item)))
deriving Inhabited

/-- An entry of a table. -/
abbrev Entry := Key × Option Span × Item

/-- What an item is in a message. -/
def Item.found : Item → Found
  | .text value => .text value
  | .integer value => .integer value
  | .float value => .float value
  | .boolean value => .boolean value
  | .moment _ => .map
  | .array _ => .sequence
  | .table .. => .map
  | .tables _ => .sequence

end ServiceWatch.Toml
