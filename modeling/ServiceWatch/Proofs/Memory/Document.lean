import ServiceWatch.Proofs.Json.Tree
import ServiceWatch.Proofs.Memory.Json

/-!
# What the document of a memory holds

A document of a memory is decoded as another memory, in which the times are as they were and the
counters that are no finite numbers are absent (`Memory.FoundAs`).  Read as a tree, it is an object
with the member `last`, in which and beside which there are members for the fields that are present
and no others (`Memory.IsHeldBy`).  The two readings agree on every number.  But a counter that is
no finite number is present in the tree, as `null`, and absent in what is decoded; so the names in
the tree are those of the memory that was written.

Both hold of the document in either style, whatever blanks stand behind it (`isHeldBy_text`).
-/

namespace ServiceWatch

open Json (IsBlank Style Value)
open Text.Utf8 (encode)

theorem Json.isSome_reread (value : Binary64) : (reread value).isSome = value.isFinite := by
  cases hfinite : value.isFinite with
  | true =>
      obtain ⟨again, hreread, -⟩ := readNumber_floatText hfinite
      rw [hreread, Option.isSome_some]
  | false => rw [reread_of_not_isFinite hfinite, Option.isSome_none]

/-- The names of those fields that are present. -/
def present (fields : List (String × Bool)) : List String :=
  (fields.filter Prod.snd).map Prod.fst

/-! ### Counters -/

namespace Counters

/-- The names of the counters that are present. -/
def names (counters : Counters) : List String :=
  present [(finalitySeries, counters.finality.isSome), (receivedSeries, counters.received.isSome),
    (verifiedSeries, counters.verified.isSome)]

/-- The counter is present and a finite number. -/
def IsFinite (counter : Option Binary64) : Prop :=
  ∃ value, counter = some value ∧ value.isFinite = true

theorem isSome_bind_reread (counter : Option Binary64) :
    (counter.bind Json.reread).isSome = true ↔ IsFinite counter := by
  cases counter with
  | none => simp [IsFinite]
  | some value => simp [IsFinite, Json.isSome_reread]

/-- The member of a counter in a document from which `found` is decoded. -/
def entry (name : String) (counter found : Option Binary64) : List (String × Value) :=
  match counter with
  | some _ => [(name, found.elim .null fun value => .number (.float value))]
  | none => []

/-- The members of the counters. -/
def entries (counters found : Counters) : List (String × Value) :=
  entry finalitySeries counters.finality found.finality ++
    entry receivedSeries counters.received found.received ++
    entry verifiedSeries counters.verified found.verified

theorem map_fst_entries (counters found : Counters) :
    (counters.entries found).map Prod.fst = counters.names := by
  obtain ⟨finality, received, verified⟩ := counters
  cases finality <;> cases received <;> cases verified <;> rfl

theorem nests_member (depth : ℕ) (name : String) (counter : Option Binary64) :
    ∀ field ∈ member name counter, field.2.Nests depth := by
  cases counter with
  | none => exact fun _ hfield => absurd hfield List.not_mem_nil
  | some value => exact List.forall_mem_singleton.mpr (.float value)

theorem nests_toJson (counters : Counters) (depth : ℕ) :
    counters.toJson.Nests (depth + 2) := by
  refine .object fun field hfield => ?_
  rw [List.mem_append, List.mem_append] at hfield
  rcases hfield with (hfinality | hreceived) | hverified
  · exact nests_member _ _ _ field hfinality
  · exact nests_member _ _ _ field hreceived
  · exact nests_member _ _ _ field hverified

theorem map_reread_member (name : String) (counter : Option Binary64) :
    (member name counter).map (Prod.map id Value.reread) =
      entry name counter (counter.bind Json.reread) := by
  cases counter <;> rfl

theorem reread_toJson (counters : Counters) :
    counters.toJson.reread = .object (counters.entries counters.reread) := by
  rw [toJson, Value.reread_object, List.map_append, List.map_append, map_reread_member,
    map_reread_member, map_reread_member]
  rfl

end Counters

/-! ### Memories -/

namespace Memory

/-- What is found of a memory: the times as they were, and each counter exactly if it is a finite
number. -/
structure FoundAs (memory found : Memory) : Prop where
  lastSeen : found.lastSeen = memory.lastSeen
  updated : found.updated = memory.updated
  finality : found.last.finality.isSome = true ↔ Counters.IsFinite memory.last.finality
  received : found.last.received.isSome = true ↔ Counters.IsFinite memory.last.received
  verified : found.last.verified.isSome = true ↔ Counters.IsFinite memory.last.verified

theorem foundAs_reread (memory : Memory) : memory.FoundAs memory.reread where
  lastSeen := rfl
  updated := rfl
  finality := Counters.isSome_bind_reread memory.last.finality
  received := Counters.isSome_bind_reread memory.last.received
  verified := Counters.isSome_bind_reread memory.last.verified

/-- The names of the times that are present. -/
def names (memory : Memory) : List String :=
  present [("last_seen", memory.lastSeen.isSome), ("updated", memory.updated.isSome)]

/-- The members of the times. -/
def times (memory : Memory) : List (String × Value) :=
  member "last_seen" memory.lastSeen ++ member "updated" memory.updated

theorem map_fst_times (memory : Memory) : memory.times.map Prod.fst = memory.names := by
  obtain ⟨last, lastSeen, updated⟩ := memory
  cases lastSeen <;> cases updated <;> rfl

/-- The document is decoded as `found`; it is an object with the member `last`, which is an object
with the members of the counters that are present, and with the members of the times that are. -/
structure IsHeldBy (memory found : Memory) (document : Json.Input) : Prop where
  decodes : ofDocument document = .ok found
  tree : ∃ gap, Json.readEnd gap = .ok () ∧ ∀ depth, Json.readTree (depth + 3) document =
    .ok (.object (("last", .object (memory.last.entries found.last)) :: memory.times), gap)
  counters : (memory.last.entries found.last).map Prod.fst = memory.last.names
  times : memory.times.map Prod.fst = memory.names

theorem nests_member (depth : ℕ) (name : String) (time : Option UInt64) :
    ∀ field ∈ member name time, field.2.Nests depth := by
  cases time with
  | none => exact fun _ hfield => absurd hfield List.not_mem_nil
  | some value => exact List.forall_mem_singleton.mpr (.natural value)

theorem nests_toJson (memory : Memory) (depth : ℕ) : memory.toJson.Nests (depth + 3) := by
  refine .object (List.forall_mem_cons.mpr ⟨memory.last.nests_toJson depth, fun field hfield => ?_⟩)
  rcases List.mem_append.mp hfield with hlastSeen | hupdated
  · exact nests_member _ _ _ field hlastSeen
  · exact nests_member _ _ _ field hupdated

theorem map_reread_member (name : String) (time : Option UInt64) :
    (member name time).map (Prod.map id Value.reread) = member name time := by
  cases time <;> rfl

/-- As a tree, the document holds what is decoded from it. -/
theorem reread_toJson (memory : Memory) :
    memory.toJson.reread =
      .object (("last", .object (memory.last.entries memory.last.reread)) :: memory.times) := by
  rw [toJson, Value.reread_object, List.map_cons, Prod.map_apply, memory.last.reread_toJson,
    List.map_append, map_reread_member, map_reread_member]
  rfl

/-- **A document of a memory holds the fields that are present**, in either style. -/
theorem isHeldBy_text (style : Style) (memory : Memory) {gap : Json.Input} (hgap : IsBlank gap) :
    memory.IsHeldBy memory.reread (encode (style.text 0 memory.toJson) ++ gap) where
  decodes := ofDocument_text style memory hgap
  tree := by
    refine ⟨gap, Json.readEnd_of_isBlank hgap, fun depth => ?_⟩
    have htree := Json.readTree_reread style (memory.nests_toJson depth) 0 Json.isBlank_nil
      hgap.stops
    rwa [memory.reread_toJson] at htree
  counters := memory.last.map_fst_entries _
  times := memory.map_fst_times

theorem isHeldBy_compact (memory : Memory) :
    memory.IsHeldBy memory.reread (encode memory.compact) := by
  have hheld := isHeldBy_text .compact memory Json.isBlank_nil
  rwa [List.append_nil] at hheld

theorem isHeldBy_pretty (memory : Memory) :
    memory.IsHeldBy memory.reread (encode memory.pretty) := by
  have hheld := isHeldBy_text .pretty memory Json.isBlank_nil
  rwa [List.append_nil] at hheld

end Memory

end ServiceWatch
