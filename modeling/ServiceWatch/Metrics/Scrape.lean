import ServiceWatch.Binary64.Basic

/-!
# Scrapes: the series of one metrics answer

A scrape holds a value for each series name that occurred; of several values for one name the
last counts.  The names are kept in the order of their first occurrence, each once, so the number
of entries is the number of names.
-/

namespace ServiceWatch

/-- The counter whose progress the probe watches. -/
def finalitySeries : String := "finality_events_total"

/-- Anchors received from peers. -/
def receivedSeries : String := "anchors_received_total"

/-- Anchors that passed verification. -/
def verifiedSeries : String := "anchors_verified_total"

/-- The series that every scrape has to hold, in the order in which missing ones are reported. -/
def requiredSeries : List String := [receivedSeries, verifiedSeries, finalitySeries]

/-- The series values of one metrics answer. -/
structure Scrape where
  entries : List (String × Binary64)
deriving DecidableEq, Repr, Inhabited

namespace Scrape

/-- The scrape without a series. -/
def empty : Scrape := ⟨[]⟩

/-- The value of the series with this name. -/
def value? (scrape : Scrape) (name : String) : Option Binary64 :=
  scrape.entries.lookup name

/-- Whether the scrape holds a series with this name. -/
def contains (scrape : Scrape) (name : String) : Bool :=
  (scrape.value? name).isSome

/-- How many series the scrape holds. -/
def size (scrape : Scrape) : Nat :=
  scrape.entries.length

/-- Whether the scrape holds no series. -/
def isEmpty (scrape : Scrape) : Bool :=
  scrape.entries.isEmpty

/-- The entries with this value for this name, in place of an earlier one or behind all others. -/
def putEntry (name : String) (value : Binary64) :
    List (String × Binary64) → List (String × Binary64)
  | [] => [(name, value)]
  | (other, old) :: rest =>
    if name == other then (other, value) :: rest else (other, old) :: putEntry name value rest

/-- The scrape with this value for this name. -/
def put (scrape : Scrape) (entry : String × Binary64) : Scrape :=
  ⟨putEntry entry.1 entry.2 scrape.entries⟩

/-- The scrape overridden by these entries, one after the other. -/
def putAll (scrape : Scrape) (entries : List (String × Binary64)) : Scrape :=
  entries.foldl put scrape

/-- The scrape of a list of named values. -/
def ofEntries (entries : List (String × Binary64)) : Scrape :=
  empty.putAll entries

/-- The names that the scrape does not hold, in the order given. -/
def missing (scrape : Scrape) (names : List String) : List String :=
  names.filter fun name => !scrape.contains name

end Scrape

end ServiceWatch
