import ServiceWatch.Memory.Json
import ServiceWatch.Proofs.Json.Float
import ServiceWatch.Proofs.Json.Record
import ServiceWatch.Proofs.Json.Style
import ServiceWatch.Store

/-!
# Reading a memory back

The document of a memory is always read as a memory again, in either style.  The two times come
back as they were; a counter comes back as what its text is read as (`Json.reread`), which need not
be the same number and is no number at all for `nan` and the infinities.  Which of the members are
there makes no difference, since a record starts from the memory in which all of them are absent.
-/

namespace ServiceWatch

open Json (IsBlank Stops Style memberBytes)
open Text.Utf8 (encode)

variable (style : Style) (depth : ℕ)

namespace Json.Record

variable {σ α : Type} {record : Record σ} {name : String} {text : Input}

/-- A member that may be `null`. -/
theorem reads_optional {read : Input → Except Failure (α × Input)} {set : σ → Option α → σ}
    {required : Bool} {value : Option α} {field : σ → Input → Except Failure (σ × Input)}
    (hfield : ∀ before s value rest, readOptional read s = .ok (value, rest) →
      field before s = .ok (set before value, rest))
    (hfind : record.fields.find? (fun field => field.name == name) =
      some ⟨name, required, field⟩)
    (hread : ∀ rest, Stops rest → readOptional read (text ++ rest) = .ok (value, rest))
    (before : σ) : record.Reads [(name, text)] before (set before value) :=
  .cons hfind (fun _ rest hgap hrest =>
    hfield before _ value rest ((readOptional_append hgap _).trans (hread rest hrest))) (.nil _)

end Json.Record

/-! ### Counters -/

namespace Counters

/-- The counters as they are read back. -/
def reread (counters : Counters) : Counters where
  finality := counters.finality.bind Json.reread
  received := counters.received.bind Json.reread
  verified := counters.verified.bind Json.reread

/-- A counter is absent, or a whole number that can be multiplied by ten without rounding. -/
def IsSafe (counter : Option Binary64) : Prop :=
  ∀ value ∈ counter, ∃ negative n, 10 * n ≤ 2 ^ 54 ∧ value = .ofNat negative n

theorem isSafe_none : IsSafe none := fun _ hvalue => absurd hvalue (by simp)

theorem isSafe_some (negative : Bool) {n : ℕ} (hn : 10 * n ≤ 2 ^ 54) :
    IsSafe (some (.ofNat negative n)) :=
  fun _ hvalue => ⟨negative, n, hn, (Option.some_inj.mp hvalue).symm⟩

/-- All counters are absent or whole numbers in the safe range. -/
structure AreSafe (counters : Counters) : Prop where
  finality : IsSafe counters.finality
  received : IsSafe counters.received
  verified : IsSafe counters.verified

theorem IsSafe.bind_reread {counter : Option Binary64} (hsafe : IsSafe counter) :
    counter.bind Json.reread = counter := by
  cases counter with
  | none => rfl
  | some value =>
      obtain ⟨negative, n, hn, rfl⟩ := hsafe value rfl
      have hbinade : 4 * Binary64.binade = 2 ^ 54 := by decide
      rw [Option.bind_some, Json.reread_ofNat negative (hn.trans_eq hbinade.symm)]

theorem AreSafe.reread {counters : Counters} (hsafe : counters.AreSafe) :
    counters.reread = counters := by
  rw [Counters.reread, hsafe.finality.bind_reread, hsafe.received.bind_reread,
    hsafe.verified.bind_reread]

theorem reads_member (name : String) (set : Counters → Option Binary64 → Counters)
    (hfind : record.fields.find? (fun field => field.name == name) =
      some ⟨name, false, readCounter set⟩)
    {before : Counters} (hblank : set before none = before) (counter : Option Binary64) :
    record.Reads ((member name counter).map (memberBytes (style.text depth))) before
      (set before (counter.bind Json.reread)) := by
  cases counter with
  | none =>
      rw [Option.bind_none, hblank]
      exact .nil before
  | some value =>
      have hread : ∀ rest, Stops rest →
          Json.readOptional Json.readBinary64
            (encode (style.text depth (.number (.float value))) ++ rest) =
              .ok (Json.reread value, rest) := by
        intro rest hrest
        rw [style.text_number]
        exact Json.readOptional_floatText value hrest
      refine Json.Record.reads_optional (fun before s value rest hread => ?_) hfind hread before
      simp [readCounter, hread, bind, Except.bind]

theorem map_fst_member (name : String) (counter : Option Binary64) :
    ((member name counter).map Prod.fst).Sublist [name] := by
  cases counter with
  | none => exact List.nil_sublist _
  | some value => exact List.Sublist.refl _

/-- **The text of counters is read as counters**, whatever stands behind it. -/
theorem read_text (counters : Counters) (rest : Json.Input) :
    record.read (encode (style.text depth counters.toJson) ++ rest) =
      .ok (counters.reread, rest) := by
  have hfinality : record.Reads _ {} { finality := counters.reread.finality } :=
    reads_member style (depth + 1) finalitySeries
      (fun counters value => { counters with finality := value }) rfl rfl counters.finality
  have hreceived : record.Reads _ { finality := counters.reread.finality }
      { finality := counters.reread.finality, received := counters.reread.received } :=
    reads_member style (depth + 1) receivedSeries
      (fun counters value => { counters with received := value }) rfl rfl counters.received
  have hverified : record.Reads _
      { finality := counters.reread.finality, received := counters.reread.received }
      counters.reread :=
    reads_member style (depth + 1) verifiedSeries
      (fun counters value => { counters with verified := value }) rfl rfl counters.verified
  -- member by member, the counters that are still to come stay absent
  have hreads := (hfinality.append hreceived).append hverified
  rw [← List.map_append, ← List.map_append] at hreads
  have hnames := ((map_fst_member finalitySeries counters.finality).append
    (map_fst_member receivedSeries counters.received)).append
    (map_fst_member verifiedSeries counters.verified)
  rw [← List.map_append, ← List.map_append] at hnames
  exact Json.Record.read_text style depth hreads (hnames.nodup (by decide)) (by simp [record]) rest

theorem skipValue_of_readCounter {set : Counters → Option Binary64 → Counters}
    {before after : Counters} {s rest : Json.Input}
    (hread : readCounter set before s = .ok (after, rest)) : Json.skipValue s = .ok rest := by
  obtain ⟨⟨value, left⟩, hvalue, hresult⟩ := bind_eq_ok_iff.mp hread
  obtain ⟨-, rfl⟩ := Prod.mk.inj (Except.ok.inj hresult)
  exact Json.skipValue_of_readOptional Json.skipStart_of_readBinary64 hvalue

/-- What is read as a counter is passed over. -/
theorem passes_record : record.Passes := by
  intro field hfield before after s rest hread
  simp only [record, List.mem_cons, List.not_mem_nil, or_false] at hfield
  rcases hfield with rfl | rfl | rfl
  all_goals
    dsimp only at hread
    exact skipValue_of_readCounter hread

end Counters

/-! ### Memories -/

namespace Memory

/-- The memory as it is read back. -/
def reread (memory : Memory) : Memory :=
  { memory with last := memory.last.reread }

theorem reread_of_areSafe {memory : Memory} (hsafe : memory.last.AreSafe) :
    memory.reread = memory := by
  rw [reread, hsafe.reread]

theorem reads_member (name : String) (set : Memory → Option UInt64 → Memory)
    (hfind : record.fields.find? (fun field => field.name == name) =
      some ⟨name, false, readTime set⟩)
    {before : Memory} (hblank : set before none = before) (time : Option UInt64) :
    record.Reads ((member name time).map (memberBytes (style.text depth))) before
      (set before time) := by
  cases time with
  | none =>
      rw [hblank]
      exact .nil before
  | some value =>
      have hread : ∀ rest, Stops rest →
          Json.readOptional Json.readUInt64
            (encode (style.text depth (.number (.unsigned value))) ++ rest) =
              .ok (some value, rest) := by
        intro rest hrest
        rw [style.text_number]
        exact Json.readOptional_digitChars value hrest
      refine Json.Record.reads_optional (fun before s value rest hread => ?_) hfind hread before
      simp [readTime, hread, bind, Except.bind]

theorem map_fst_member (name : String) (time : Option UInt64) :
    ((member name time).map Prod.fst).Sublist [name] := by
  cases time with
  | none => exact List.nil_sublist _
  | some value => exact List.Sublist.refl _

theorem reads_last (counters : Counters) :
    record.Reads ([("last", counters.toJson)].map (memberBytes (style.text depth))) .blank
      { last := counters.reread } := by
  refine .cons rfl (fun gap rest hgap _ => ?_) (.nil _)
  simp [readLast, Json.Record.read_append hgap, Counters.read_text style depth, bind, Except.bind,
    blank]

theorem skipValue_of_readTime {set : Memory → Option UInt64 → Memory} {before after : Memory}
    {s rest : Json.Input} (hread : readTime set before s = .ok (after, rest)) :
    Json.skipValue s = .ok rest := by
  obtain ⟨⟨value, left⟩, hvalue, hresult⟩ := bind_eq_ok_iff.mp hread
  obtain ⟨-, rfl⟩ := Prod.mk.inj (Except.ok.inj hresult)
  exact Json.skipValue_of_readOptional Json.skipStart_of_readUInt64 hvalue

theorem skipValue_of_readLast {before after : Memory} {s rest : Json.Input}
    (hread : readLast before s = .ok (after, rest)) : Json.skipValue s = .ok rest := by
  obtain ⟨⟨counters, left⟩, hcounters, hresult⟩ := bind_eq_ok_iff.mp hread
  obtain ⟨-, rfl⟩ := Prod.mk.inj (Except.ok.inj hresult)
  have hskip := Json.Record.skipValue_of_read Counters.passes_record hcounters []
  rwa [List.append_nil, List.append_nil] at hskip

/-- What is read as a field of a memory is passed over. -/
theorem passes_record : record.Passes := by
  intro field hfield before after s rest hread
  simp only [record, List.mem_cons, List.not_mem_nil, or_false] at hfield
  rcases hfield with rfl | rfl | rfl
  · exact skipValue_of_readLast hread
  all_goals
    dsimp only at hread
    exact skipValue_of_readTime hread

/-- **The text of a memory is read as a memory**, with the counters reread, whatever stands behind
it. -/
theorem read_text (memory : Memory) (rest : Json.Input) :
    record.read (encode (style.text 0 memory.toJson) ++ rest) = .ok (memory.reread, rest) := by
  have hlastSeen : record.Reads _ { last := memory.last.reread }
      { last := memory.last.reread, lastSeen := memory.lastSeen } :=
    reads_member style 1 "last_seen" (fun memory value => { memory with lastSeen := value }) rfl rfl
      memory.lastSeen
  have hupdated : record.Reads _ { last := memory.last.reread, lastSeen := memory.lastSeen }
      memory.reread :=
    reads_member style 1 "updated" (fun memory value => { memory with updated := value }) rfl rfl
      memory.updated
  have hreads := (reads_last style 1 memory.last).append (hlastSeen.append hupdated)
  rw [← List.map_append, ← List.map_append] at hreads
  have hlast : ([("last", memory.last.toJson)].map Prod.fst).Sublist ["last"] :=
    List.Sublist.refl ["last"]
  have hnames := hlast.append ((map_fst_member "last_seen" memory.lastSeen).append
    (map_fst_member "updated" memory.updated))
  rw [← List.map_append, ← List.map_append] at hnames
  exact Json.Record.read_text style 0 hreads (hnames.nodup (by decide)) (by simp [record]) rest

/-- **The document of every memory is read as a memory.** -/
theorem ofDocument_text (memory : Memory) {gap : Json.Input} (hgap : IsBlank gap) :
    ofDocument (encode (style.text 0 memory.toJson) ++ gap) = .ok memory.reread :=
  Json.Record.readDocument_of_read hgap (read_text style memory gap)

/-- **A document of a memory that is cut off holds no memory.** -/
theorem ofDocument_of_prefix {memory : Memory} {front : Json.Input}
    (hbegins : front <+: encode (style.text 0 memory.toJson))
    (hne : front ≠ encode (style.text 0 memory.toJson)) :
    ∃ failure, ofDocument front = .error failure := by
  have hread := read_text style memory []
  rw [List.append_nil] at hread
  exact Json.Record.readDocument_of_prefix passes_record hread hbegins hne

end Memory

theorem Memory.ofDocument_compact (memory : Memory) :
    ofDocument (encode memory.compact) = .ok memory.reread := by
  have hdocument := ofDocument_text .compact memory Json.isBlank_nil
  rwa [List.append_nil] at hdocument

theorem Memory.ofDocument_pretty (memory : Memory) :
    ofDocument (encode memory.pretty) = .ok memory.reread := by
  have hdocument := ofDocument_text .pretty memory Json.isBlank_nil
  rwa [List.append_nil] at hdocument

/-- What a save writes is decoded again. -/
theorem Store.decode_encode (memory : Memory) : decode (encode memory) = .ok memory.reread := by
  rw [decode, encode, Memory.ofDocument_compact]

end ServiceWatch
