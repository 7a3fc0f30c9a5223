import ServiceWatch.Json.Record
import ServiceWatch.Memory

/-!
# The memory as a JSON document

A memory is written as an object with the member `last`, itself an object with a member for each
counter that has a value, and members for the two times where they are known.  A counter that is
no finite number is written `null` and so reads back as absent.
-/

namespace ServiceWatch

namespace Counters

/-- The member of an optional counter. -/
def member (name : String) (counter : Option Binary64) : List (String × Json.Value) :=
  match counter with
  | some value => [(name, .number (.float value))]
  | none => []

/-- The counters as a JSON value. -/
def toJson (counters : Counters) : Json.Value :=
  .object
    (member finalitySeries counters.finality ++ member receivedSeries counters.received ++
      member verifiedSeries counters.verified)

/-- Reads an optional counter. -/
def readCounter (set : Counters → Option Binary64 → Counters) (counters : Counters)
    (s : Json.Input) : Except Json.Failure (Counters × Json.Input) := do
  let (value, s) ← Json.readOptional Json.readBinary64 s
  .ok (set counters value, s)

/-- How counters are read. -/
def record : Json.Record Counters where
  expected := "struct CounterValues"
  fields :=
    [⟨finalitySeries, false,
        readCounter fun counters value => { counters with finality := value }⟩,
      ⟨receivedSeries, false,
        readCounter fun counters value => { counters with received := value }⟩,
      ⟨verifiedSeries, false,
        readCounter fun counters value => { counters with verified := value }⟩]
  blank := {}

end Counters

namespace Memory

/-- The member of an optional time. -/
def member (name : String) (time : Option UInt64) : List (String × Json.Value) :=
  match time with
  | some value => [(name, .number (.unsigned value))]
  | none => []

/-- The memory as a JSON value. -/
def toJson (memory : Memory) : Json.Value :=
  .object
    (("last", memory.last.toJson) ::
      (member "last_seen" memory.lastSeen ++ member "updated" memory.updated))

/-- Reads an optional time. -/
def readTime (set : Memory → Option UInt64 → Memory) (memory : Memory) (s : Json.Input) :
    Except Json.Failure (Memory × Json.Input) := do
  let (value, s) ← Json.readOptional Json.readUInt64 s
  .ok (set memory value, s)

/-- Reads the counters. -/
def readLast (memory : Memory) (s : Json.Input) : Except Json.Failure (Memory × Json.Input) := do
  let (counters, s) ← Counters.record.read s
  .ok ({ memory with last := counters }, s)

/-- How a memory is read. -/
def record : Json.Record Memory where
  expected := "struct PersistedState"
  fields :=
    [⟨"last", false, readLast⟩,
      ⟨"last_seen", false, readTime fun memory value => { memory with lastSeen := value }⟩,
      ⟨"updated", false, readTime fun memory value => { memory with updated := value }⟩]
  blank := .blank

/-- The memory that a document holds. -/
def ofDocument (document : Json.Input) : Except Json.Failure Memory :=
  record.readDocument document

/-- The document without blanks that holds the memory. -/
def compact (memory : Memory) : List Char :=
  memory.toJson.compact

/-- The document with a line for each member. -/
def pretty (memory : Memory) : List Char :=
  memory.toJson.pretty

end Memory

end ServiceWatch
