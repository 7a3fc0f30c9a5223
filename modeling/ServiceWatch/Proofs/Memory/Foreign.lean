import ServiceWatch.Proofs.Json.Tree
import ServiceWatch.Proofs.Memory.Json

/-!
# Memories that others wrote

A document that holds a memory need not have been written by a save.  Its members may stand in any
order, with any blanks around them and their names in any spelling, and others may stand among them
that have nothing to do with a memory, each with a value of any form.  What it is decoded as depends
on none of this: a field is what its member says, and absent if there is no such member
(`Memory.IsGivenBy`).  Only a name that occurs twice is not borne with.
-/

namespace ServiceWatch

open Json (IsBlank IsDocument IsObject Stops)
open Text.Utf8 (encode)

variable {members others : List (String × Json.Input)} {document text rest : Json.Input}

/-! ### What members say -/

/-- The text of `null`. -/
def Json.nullText : Json.Input := [0x6E, 0x75, 0x6C, 0x6C]

/-- The text is `null`, for no time, or the digits of a natural number of sixty-four bits.  `-0` is
none of these: it is a floating-point number. -/
inductive IsTime : Json.Input → Option UInt64 → Prop where
  | null : IsTime Json.nullText none
  | digits (n : UInt64) : IsTime (encode (Decimal.digitChars n.toNat)) (some n)

/-- The text is `null`, for no counter, or a number that is accepted as a counter. -/
inductive IsCounter : Json.Input → Option Binary64 → Prop where
  | null : IsCounter Json.nullText none
  | number {text : Json.Input} {value : Binary64}
      (hread : Json.readBinary64 text = .ok (value, [])) : IsCounter text (some value)

/-- What the members say of an optional field: what its text spells, and nothing if none of them has
its name. -/
structure Tells {α : Type} (spells : Json.Input → Option α → Prop)
    (members : List (String × Json.Input)) (name : String) (value : Option α) : Prop where
  present : ∀ text, (name, text) ∈ members → spells text value
  absent : (∀ text, (name, text) ∉ members) → value = none

theorem Tells.of_mem_iff {α : Type} {spells : Json.Input → Option α → Prop} {name : String}
    {value : Option α} (htells : Tells spells members name value)
    (hmem : ∀ text, (name, text) ∈ others ↔ (name, text) ∈ members) :
    Tells spells others name value where
  present := fun text htext => htells.present text ((hmem text).mp htext)
  absent := fun hnone => htells.absent fun text => mt (hmem text).mpr (hnone text)

/-- The counters are those that the members of an object give, none of them twice. -/
structure Counters.IsGivenBy (counters : Counters) (members : List (String × Json.Input)) :
    Prop where
  nodup : (record.known members).Nodup
  finality : Tells IsCounter members finalitySeries counters.finality
  received : Tells IsCounter members receivedSeries counters.received
  verified : Tells IsCounter members verifiedSeries counters.verified

/-- The memory is the one that the members of an object give, none of them twice. -/
structure Memory.IsGivenBy (memory : Memory) (members : List (String × Json.Input)) : Prop where
  nodup : (record.known members).Nodup
  last : ∀ text, ("last", text) ∈ members →
    ∃ counters, IsObject counters text ∧ memory.last.IsGivenBy counters
  noLast : (∀ text, ("last", text) ∉ members) → memory.last = {}
  lastSeen : Tells IsTime members "last_seen" memory.lastSeen
  updated : Tells IsTime members "updated" memory.updated

/-! ### Counters -/

theorem readOptional_null {α : Type} {read : Json.Input → Except Json.Failure (α × Json.Input)}
    (rest : Json.Input) : Json.readOptional read (Json.nullText ++ rest) = .ok (none, rest) :=
  rfl

theorem IsCounter.read {counter : Option Binary64} (hcounter : IsCounter text counter)
    (htext : Json.Forms .value text) (hrest : Stops rest) :
    Json.readOptional Json.readBinary64 (text ++ rest) = .ok (counter, rest) := by
  cases hcounter with
  | null => exact readOptional_null rest
  | number hread =>
      exact Json.readOptional_of_beginsNumber
        (Json.beginsNumber_of_readBinary64 htext.beginsValue hread rest)
        (Json.readBinary64_append hread hrest)

theorem IsTime.read {time : Option UInt64} (htime : IsTime text time) (hrest : Stops rest) :
    Json.readOptional Json.readUInt64 (text ++ rest) = .ok (time, rest) := by
  cases htime with
  | null => exact readOptional_null rest
  | digits n => exact Json.readOptional_digitChars n hrest

namespace Counters

/-- The counter of a name. -/
def part (name : String) (counters : Counters) : Option (Option Binary64) :=
  if name = finalitySeries then some counters.finality
  else if name = receivedSeries then some counters.received
  else if name = verifiedSeries then some counters.verified
  else none

theorem knows_iff (name : String) :
    record.knows name = true ↔
      name = finalitySeries ∨ name = receivedSeries ∨ name = verifiedSeries := by
  simp [Json.Record.knows, record, @eq_comm _ name]

theorem reads_counter {name : String} (set : Counters → Option Binary64 → Counters)
    (hfind : record.fields.find? (fun field => field.name == name) =
      some ⟨name, false, readCounter set⟩) {counter : Option Binary64}
    (hcounter : IsCounter text counter) (htext : Json.Forms .value text) (before : Counters) :
    record.Reads [(name, text)] before (set before counter) := by
  refine Json.Record.reads_optional (fun before s value rest hread => ?_) hfind
    (fun rest hrest => hcounter.read htext hrest) before
  simp [readCounter, hread, bind, Except.bind]

/-- Each member of a known name sets the counter of that name. -/
theorem sets_record :
    record.Sets part fun _ text part => ∃ counter, part = some counter ∧ IsCounter text counter where
  ext := by
    rintro ⟨finality, received, verified⟩ ⟨_, _, _⟩ hparts
    obtain rfl := Option.some_inj.mp (hparts finalitySeries)
    obtain rfl := Option.some_inj.mp (hparts receivedSeries)
    obtain rfl := Option.some_inj.mp (hparts verifiedSeries)
    rfl
  reads := by
    rintro name text _ before hknows htext ⟨counter, rfl, hcounter⟩
    rcases (knows_iff name).mp hknows with rfl | rfl | rfl
    · refine ⟨_, reads_counter (fun counters value => { counters with finality := value })
        rfl hcounter htext before, rfl, fun other hother => ?_⟩
      simp [part, hother]
    · refine ⟨_, reads_counter (fun counters value => { counters with received := value })
        rfl hcounter htext before, rfl, fun other hother => ?_⟩
      simp [part, hother]
    · refine ⟨_, reads_counter (fun counters value => { counters with verified := value })
        rfl hcounter htext before, rfl, fun other hother => ?_⟩
      simp [part, hother]

/-- **Counters are read from any object that gives them**, whatever follows. -/
theorem IsGivenBy.read {counters : Counters} (hgiven : counters.IsGivenBy members)
    (hobject : IsObject members text) (rest : Json.Input) :
    record.read (text ++ rest) = .ok (counters, rest) := by
  obtain ⟨items, rfl, hlists⟩ := hobject.lists
  refine Json.Record.read_lists hlists (sets_record.reads_members hobject.forms ?_ ?_) hgiven.nodup
    (by simp [record]) rest
  · intro name text hknows hmember
    rcases (knows_iff name).mp hknows with rfl | rfl | rfl
    · exact ⟨_, rfl, hgiven.finality.present text hmember⟩
    · exact ⟨_, rfl, hgiven.received.present text hmember⟩
    · exact ⟨_, rfl, hgiven.verified.present text hmember⟩
  · intro name hmember
    by_cases hknows : record.knows name = true
    · have habsent := fun text => hmember text hknows
      rcases (knows_iff name).mp hknows with rfl | rfl | rfl
      · exact congrArg some (hgiven.finality.absent habsent)
      · exact congrArg some (hgiven.received.absent habsent)
      · exact congrArg some (hgiven.verified.absent habsent)
    · obtain ⟨hfinality, hothers⟩ := not_or.mp (mt (knows_iff name).mpr hknows)
      obtain ⟨hreceived, hverified⟩ := not_or.mp hothers
      simp [part, hfinality, hreceived, hverified]

end Counters

/-! ### Memories -/

namespace Memory

/-- The counters or the time of a name. -/
def part (name : String) (memory : Memory) : Option (Counters ⊕ Option UInt64) :=
  if name = "last" then some (.inl memory.last)
  else if name = "last_seen" then some (.inr memory.lastSeen)
  else if name = "updated" then some (.inr memory.updated)
  else none

theorem knows_iff (name : String) :
    record.knows name = true ↔ name = "last" ∨ name = "last_seen" ∨ name = "updated" := by
  simp [Json.Record.knows, record, @eq_comm _ name]

/-- What the text of a value spells under a name. -/
inductive Spells : String → Json.Input → Option (Counters ⊕ Option UInt64) → Prop where
  | last {text : Json.Input} {members : List (String × Json.Input)} {counters : Counters}
      (hobject : IsObject members text) (hgiven : counters.IsGivenBy members) :
      Spells "last" text (some (.inl counters))
  | time {name : String} {text : Json.Input} {time : Option UInt64} (hname : name ≠ "last")
      (htime : IsTime text time) : Spells name text (some (.inr time))

theorem reads_time {name : String} (set : Memory → Option UInt64 → Memory)
    (hfind : record.fields.find? (fun field => field.name == name) =
      some ⟨name, false, readTime set⟩) {time : Option UInt64} (htime : IsTime text time)
    (before : Memory) : record.Reads [(name, text)] before (set before time) := by
  refine Json.Record.reads_optional (fun before s value rest hread => ?_) hfind
    (fun rest hrest => htime.read hrest) before
  simp [readTime, hread, bind, Except.bind]

theorem reads_object {counters : Counters} (hobject : IsObject members text)
    (hgiven : counters.IsGivenBy members) (before : Memory) :
    record.Reads [("last", text)] before { before with last := counters } := by
  refine .cons rfl (fun gap rest hgap _ => ?_) (.nil _)
  simp [readLast, Json.Record.read_append hgap, hgiven.read hobject, bind, Except.bind]

/-- Each member of a known name sets the counters or the time of that name. -/
theorem sets_record : record.Sets part Spells where
  ext := by
    rintro ⟨last, lastSeen, updated⟩ ⟨_, _, _⟩ hparts
    obtain rfl := Sum.inl_injective (Option.some_inj.mp (hparts "last"))
    obtain rfl := Sum.inr_injective (Option.some_inj.mp (hparts "last_seen"))
    obtain rfl := Sum.inr_injective (Option.some_inj.mp (hparts "updated"))
    rfl
  reads := by
    intro name text value before hknows _ hspells
    cases hspells with
    | last hobject hgiven =>
        refine ⟨_, reads_object hobject hgiven before, rfl, fun other hother => ?_⟩
        simp [part, hother]
    | time hname htime =>
        rcases (knows_iff name).mp hknows with rfl | rfl | rfl
        · exact absurd rfl hname
        · refine ⟨_, reads_time (fun memory value => { memory with lastSeen := value })
            rfl htime before, rfl, fun other hother => ?_⟩
          simp [part, hother]
        · refine ⟨_, reads_time (fun memory value => { memory with updated := value })
            rfl htime before, rfl, fun other hother => ?_⟩
          simp [part, hother]

/-- **A memory is read from any object that gives it**, whatever follows. -/
theorem IsGivenBy.read {memory : Memory} (hgiven : memory.IsGivenBy members)
    (hobject : IsObject members text) (rest : Json.Input) :
    record.read (text ++ rest) = .ok (memory, rest) := by
  obtain ⟨items, rfl, hlists⟩ := hobject.lists
  refine Json.Record.read_lists hlists (sets_record.reads_members hobject.forms ?_ ?_) hgiven.nodup
    (by simp [record]) rest
  · intro name text hknows hmember
    rcases (knows_iff name).mp hknows with rfl | rfl | rfl
    · obtain ⟨counters, hcounters, hlast⟩ := hgiven.last text hmember
      exact .last hcounters hlast
    · exact .time (by decide) (hgiven.lastSeen.present text hmember)
    · exact .time (by decide) (hgiven.updated.present text hmember)
  · intro name hmember
    by_cases hknows : record.knows name = true
    · have habsent := fun text => hmember text hknows
      rcases (knows_iff name).mp hknows with rfl | rfl | rfl
      · exact congrArg (some ∘ Sum.inl) (hgiven.noLast habsent)
      · exact congrArg (some ∘ Sum.inr) (hgiven.lastSeen.absent habsent)
      · exact congrArg (some ∘ Sum.inr) (hgiven.updated.absent habsent)
    · obtain ⟨hlast, hothers⟩ := not_or.mp (mt (knows_iff name).mpr hknows)
      obtain ⟨hlastSeen, hupdated⟩ := not_or.mp hothers
      simp [part, hlast, hlastSeen, hupdated]

theorem ofDocument_of_isGivenBy {memory : Memory} (hdocument : IsDocument members document)
    (hgiven : memory.IsGivenBy members) : ofDocument document = .ok memory := by
  obtain ⟨front, text, back, hfront, hobject, hback, rfl⟩ := hdocument
  refine Json.Record.readDocument_of_read hback ?_
  rw [Json.Record.read_append hfront, hgiven.read hobject]

/-! ### Names that occur twice -/

/-- If a document is decoded, no known name occurs twice in it, nor in the object of its counters. -/
theorem nodup_of_ofDocument {memory : Memory} (hdocument : IsDocument members document)
    (hdecodes : ofDocument document = .ok memory) :
    (record.known members).Nodup ∧ ∀ text counters, ("last", text) ∈ members →
      IsObject counters text → (Counters.record.known counters).Nodup := by
  obtain ⟨front, text, back, hfront, hobject, hback, rfl⟩ := hdocument
  obtain ⟨result, hread, -⟩ := bind_eq_ok_iff.mp hdecodes
  obtain ⟨hnodup, hmembers⟩ := Json.Record.nodup_of_read passes_record hobject hfront hread
  refine ⟨hnodup, fun text counters hlast hcounters => ?_⟩
  obtain ⟨before, gap, rest, result, hgap, hvalue⟩ := hmembers _ hlast _ rfl
  obtain ⟨found, hfound, -⟩ := bind_eq_ok_iff.mp hvalue
  exact (Json.Record.nodup_of_read Counters.passes_record hcounters hgap hfound).1

/-! ### Other orders -/

/-- In another order, members give the same memory. -/
theorem IsGivenBy.of_sameKnown {memory : Memory} (hgiven : memory.IsGivenBy members)
    (hsame : record.SameKnown members others) : memory.IsGivenBy others := by
  have hmem : ∀ {name : String}, record.knows name = true → ∀ text,
      (name, text) ∈ others ↔ (name, text) ∈ members := fun hknows text =>
    (hsame.mem_iff hknows text).symm
  have hlast : ∀ text, ("last", text) ∈ others ↔ ("last", text) ∈ members := hmem rfl
  exact {
    nodup := hsame.nodup_iff.mp hgiven.nodup
    last := fun text htext => hgiven.last text ((hlast text).mp htext)
    noLast := fun hnone => hgiven.noLast fun text => mt (hlast text).mpr (hnone text)
    lastSeen := hgiven.lastSeen.of_mem_iff (hmem rfl)
    updated := hgiven.updated.of_mem_iff (hmem rfl) }

/-- **What a document is decoded as depends on the members of known names alone**, and not on their
order, the blanks, the spelling of the names or the other members.  If a known name occurs twice, the
document is refused. -/
theorem ofDocument_decodes_by_name (hdocument : IsDocument members document) :
    (∀ memory : Memory, memory.IsGivenBy members →
      ofDocument document = .ok memory ∧
        ∀ others other, record.SameKnown members others → IsDocument others other →
          ofDocument other = .ok memory) ∧
      ((¬ (record.known members).Nodup ∨
          ∃ text counters, ("last", text) ∈ members ∧ IsObject counters text ∧
            ¬ (Counters.record.known counters).Nodup) →
        ∃ failure, ofDocument document = .error failure) := by
  constructor
  · intro memory hgiven
    exact ⟨ofDocument_of_isGivenBy hdocument hgiven, fun others other hsame hother =>
      ofDocument_of_isGivenBy hother (hgiven.of_sameKnown hsame)⟩
  · intro htwice
    cases hdecodes : ofDocument document with
    | error failure => exact ⟨failure, rfl⟩
    | ok memory =>
        obtain ⟨hnodup, hcounters⟩ := nodup_of_ofDocument hdocument hdecodes
        rcases htwice with htwice | ⟨text, counters, hlast, hobject, htwice⟩
        · exact absurd hnodup htwice
        · exact absurd (hcounters text counters hlast hobject) htwice

/-- An object with one counter, -/
def foreignLast : Json.Input := encode "\x7b\"finality_events_total\":5\x7d".toList

/-- the members of an object with another member in front of it, -/
def foreignMembers : List (String × Json.Input) :=
  [("updated", encode "7".toList), ("x", encode "[]".toList), ("last", foreignLast)]

/-- and a document with these, in which there are blanks and an escape in a name. -/
def foreignDocument : Json.Input :=
  encode " \x7b \"updated\" : 7,\n\"x\":[],\"l\\u0061st\":".toList ++ foreignLast ++ [0x7D]

/-- The memory that the members give. -/
def foreignMemory : Memory where
  last := { finality := some (.ofNat false 5) }
  updated := some 7

theorem isObject_foreignLast : IsObject [(finalitySeries, encode "5".toList)] foreignLast where
  lists := by
    refine ⟨_, ?_, .member (.first Json.isBlank_nil) (Json.spells_spelling finalitySeries)
      Json.isBlank_nil Json.isBlank_nil (.closing Json.isBlank_nil)⟩
    decide +kernel
  forms := List.forall_mem_singleton.mpr (.number (Json.isMagnitude_digitChars 5))

theorem spells_foreignLast :
    Json.Spells (encode "l\\u0061st".toList) (encode "last".toList) := by
  have hlast : Json.Spells [0x6C, 0x5C, 0x75, 0x30, 0x30, 0x36, 0x31, 0x73, 0x74]
      (0x6C :: (String.utf8EncodeChar (Char.ofNat 0x61) ++ [0x73, 0x74])) :=
    .byte (by decide) (by decide) (by decide) (.code (by decide) (Or.inl (by decide))
      (.byte (by decide) (by decide) (by decide) (.byte (by decide) (by decide) (by decide) .nil)))
  exact hlast

theorem isDocument_foreignDocument : IsDocument foreignMembers foreignDocument := by
  have hspace : IsBlank [0x20] := List.forall_mem_singleton.mpr rfl
  have hline : IsBlank [0x0A] := List.forall_mem_singleton.mpr rfl
  have hforms : ∀ member ∈ foreignMembers, Json.Forms .value member.2 :=
    List.forall_mem_cons.mpr ⟨.number (Json.isMagnitude_digitChars 7),
      List.forall_mem_cons.mpr ⟨@Json.Forms.empty .square [] Json.isBlank_nil,
        List.forall_mem_singleton.mpr isObject_foreignLast.forms_text⟩⟩
  have hlast : Json.Lists false [("last", foreignLast)] _ :=
    .member (.next Json.isBlank_nil Json.isBlank_nil) spells_foreignLast Json.isBlank_nil
      Json.isBlank_nil (.closing Json.isBlank_nil)
  have hlists : Json.Lists true foreignMembers _ :=
    .member (.first hspace) (Json.spells_spelling "updated") hspace hspace
      (.member (.next Json.isBlank_nil hline) (Json.spells_spelling "x") Json.isBlank_nil
        Json.isBlank_nil hlast)
  exact ⟨[0x20], _, [], hspace, ⟨⟨_, rfl, hlists⟩, hforms⟩, Json.isBlank_nil, by decide +kernel⟩

theorem isGivenBy_foreignMemory : foreignMemory.IsGivenBy foreignMembers where
  nodup := by decide +kernel
  last := by
    intro text htext
    obtain rfl : text = foreignLast := by simpa [foreignMembers] using htext
    refine ⟨_, isObject_foreignLast, by decide +kernel, ⟨?_, ?_⟩, ⟨?_, ?_⟩, ⟨?_, ?_⟩⟩
    · intro text htext
      obtain rfl : text = encode "5".toList := by simpa using htext
      exact .number (by decide +kernel)
    · intro hnone
      exact absurd (List.mem_singleton.mpr rfl) (hnone _)
    · exact fun text htext => absurd htext (by simp [finalitySeries, receivedSeries])
    · exact fun _ => rfl
    · exact fun text htext => absurd htext (by simp [finalitySeries, verifiedSeries])
    · exact fun _ => rfl
  noLast := fun hnone => absurd (by simp [foreignMembers]) (hnone foreignLast)
  lastSeen := ⟨fun text htext => absurd htext (by simp [foreignMembers]), fun _ => rfl⟩
  updated := by
    refine ⟨fun text htext => ?_, fun hnone => ?_⟩
    · obtain rfl : text = encode "7".toList := by simpa [foreignMembers] using htext
      exact .digits 7
    · exact absurd (by simp [foreignMembers]) (hnone (encode "7".toList))

/-- Members of which two have one name. -/
def twiceMembers : List (String × Json.Input) :=
  [("updated", encode "7".toList), ("updated", encode "7".toList)]

theorem isDocument_twice :
    IsDocument twiceMembers
      (encode "\x7b\"updated\":7,\"updated\":7\x7d".toList) := by
  have hforms : ∀ member ∈ twiceMembers, Json.Forms .value member.2 :=
    List.forall_mem_cons.mpr ⟨.number (Json.isMagnitude_digitChars 7),
      List.forall_mem_singleton.mpr (.number (Json.isMagnitude_digitChars 7))⟩
  have hlists : Json.Lists true twiceMembers _ :=
    .member (.first Json.isBlank_nil) (Json.spells_spelling "updated") Json.isBlank_nil
      Json.isBlank_nil
      (.member (.next Json.isBlank_nil Json.isBlank_nil) (Json.spells_spelling "updated")
        Json.isBlank_nil Json.isBlank_nil (.closing Json.isBlank_nil))
  exact ⟨[], _, [], Json.isBlank_nil, ⟨⟨_, rfl, hlists⟩, hforms⟩, Json.isBlank_nil,
    by decide +kernel⟩

theorem foreignDocument_decodes :
    IsDocument foreignMembers foreignDocument ∧ foreignMemory.IsGivenBy foreignMembers ∧
      ofDocument foreignDocument = .ok foreignMemory ∧
      ∃ failure, ofDocument (encode "\x7b\"updated\":7,\"updated\":7\x7d".toList) =
        .error failure :=
  ⟨isDocument_foreignDocument, isGivenBy_foreignMemory,
    ((ofDocument_decodes_by_name isDocument_foreignDocument).1 foreignMemory
      isGivenBy_foreignMemory).1,
    (ofDocument_decodes_by_name isDocument_twice).2 (Or.inl (by decide +kernel))⟩

end Memory

end ServiceWatch
