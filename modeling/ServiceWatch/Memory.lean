import ServiceWatch.Metrics.Scrape

/-!
# What the probe remembers between runs

The memory holds the counters as they were last seen, the time of the last progress and the time
it was written.  Every part may be absent: a memory without a value for the watched counter has no
baseline yet.
-/

namespace ServiceWatch

/-- The last observed values of the required series. -/
structure Counters where
  finality : Option Binary64 := none
  received : Option Binary64 := none
  verified : Option Binary64 := none
deriving DecidableEq, Repr, Inhabited

namespace Counters

/-- The counters as a scrape gives them; a series that it lacks counts as zero. -/
def ofScrape (scrape : Scrape) : Counters where
  finality := some ((scrape.value? finalitySeries).getD .zero)
  received := some ((scrape.value? receivedSeries).getD .zero)
  verified := some ((scrape.value? verifiedSeries).getD .zero)

end Counters

/-- What one run leaves for the next. -/
structure Memory where
  last : Counters := {}
  /-- The time of the last progress of the watched counter, in seconds. -/
  lastSeen : Option UInt64 := none
  /-- The time of the last write, in seconds. -/
  updated : Option UInt64 := none
deriving DecidableEq, Repr, Inhabited

namespace Memory

/-- Nothing remembered. -/
def blank : Memory := {}

/-- Equality of optional counters as values: a `nan` differs from itself. -/
def isEqualCounter : Option Binary64 → Option Binary64 → Bool
  | none, none => true
  | some a, some b => a.isEqual b
  | _, _ => false

/-- Equality as values: counters are compared as numbers. -/
def isEqual (a b : Memory) : Bool :=
  isEqualCounter a.last.finality b.last.finality &&
    isEqualCounter a.last.received b.last.received &&
    isEqualCounter a.last.verified b.last.verified &&
    a.lastSeen == b.lastSeen && a.updated == b.updated

end Memory

end ServiceWatch
