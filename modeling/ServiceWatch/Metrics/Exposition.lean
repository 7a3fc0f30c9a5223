import ServiceWatch.Binary64.Decimal
import ServiceWatch.Metrics.Scrape
import ServiceWatch.Text.Blank
import ServiceWatch.Text.Line

/-!
# The text form of a scrape

A metrics answer has one series per line: its name, blanks, its value.  A line that is empty,
starts with `#`, has another number of tokens or a second token that is no number says nothing
and is passed over, so a garbled answer still yields every line that can be read.
-/

namespace ServiceWatch.Metrics

/-- The series and value that a line gives, if it gives one. -/
def ofLine? (line : List Char) : Option (String × Binary64) :=
  if line.head? = some '#' then none
  else
    match Text.tokens line with
    | [name, value] => (Binary64.ofText? value).map fun number => (String.ofList name, number)
    | _ => none

/-- What the lines of a text give, in order. -/
def entries (body : String) : List (String × Binary64) :=
  (Text.lines body.toList).filterMap ofLine?

end ServiceWatch.Metrics

namespace ServiceWatch

/-- The scrape that a metrics answer spells. -/
def Scrape.ofText (body : String) : Scrape :=
  .ofEntries (Metrics.entries body)

end ServiceWatch
