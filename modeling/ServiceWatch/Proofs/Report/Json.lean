import ServiceWatch.Proofs.Json.Tagged

/-!
# Reading a report back

Each entry of a report is a tagged object from which its type makes the entry again, and a report is
an object of two lists of them.  So every document that has these two members holds the report,
whatever other members it has, as long as those have other names and are well-formed.
-/

namespace ServiceWatch

open Json (IsBlank Stops Style memberBytes tagName)
open Text.Utf8 (encode)

variable {nesting : ℕ}

/-- The words for the severities, by the exit codes. -/
theorem Severity.word_iff (severity : Severity) :
    (severity.word = "ok" ↔ severity.exitCode = 0) ∧
      (severity.word = "warning" ↔ severity.exitCode = 1) ∧
      (severity.word = "error" ↔ severity.exitCode = 2) := by
  cases severity <;> decide

theorem Json.Value.toUInt16_ofNat (code : UInt16) :
    Value.toUInt16 (.number (.unsigned (UInt64.ofNat code.toNat))) = .ok code := by
  have hword : (UInt64.ofNat code.toNat).toNat = code.toNat :=
    UInt64.toNat_ofNat_of_lt' (code.toNat_lt.trans (by decide))
  simp only [Value.toUInt16, Numeral.toWord, bind, Except.bind, hword, code.toNat_lt, if_true]
  rw [UInt16.ofNat_toNat]

theorem EndpointFailure.writes (failure : EndpointFailure) :
    variants.Writes nesting failure failure.toJson := by
  cases failure with
  | status code body =>
      refine .intro rfl ?_ (by simp [tagName]) ?_
      · have hcode := Json.Value.toUInt16_ofNat code
        generalize Json.Value.number (.unsigned (UInt64.ofNat code.toNat)) = word at hcode ⊢
        simp [Json.Variant.ofSlots, Json.Variant.takeMembers, Json.textSlot, Json.Value.toText,
          Except.map, bind, Except.bind, hcode]
      · exact List.forall_mem_cons.mpr ⟨.natural _, List.forall_mem_singleton.mpr (.string _)⟩
  | unreachable reason =>
      exact .intro rfl rfl (by simp [tagName]) (List.forall_mem_singleton.mpr (.string _))

theorem Outage.writes (outage : Outage) :
    variants.Writes (nesting + 2) outage outage.toJson := by
  cases outage with
  | processQuery program reason =>
      refine .intro rfl rfl (by simp [tagName]) ?_
      exact List.forall_mem_cons.mpr ⟨.string _, List.forall_mem_singleton.mpr (.string _)⟩
  | serviceInactive service state =>
      refine .intro rfl rfl (by simp [tagName]) ?_
      exact List.forall_mem_cons.mpr ⟨.string _, List.forall_mem_singleton.mpr (.string _)⟩
  | healthEndpoint failure =>
      refine .intro rfl ?_ (by simp [tagName]) (List.forall_mem_singleton.mpr failure.writes.fits)
      have hfailure := (@EndpointFailure.writes 0 failure).ofValue
      simp [Json.Variant.ofSlots, Json.Variant.takeMembers, EndpointFailure.slot, bind, Except.bind,
        hfailure]
  | metricsEndpoint failure =>
      refine .intro rfl ?_ (by simp [tagName]) (List.forall_mem_singleton.mpr failure.writes.fits)
      have hfailure := (@EndpointFailure.writes 0 failure).ofValue
      simp [Json.Variant.ofSlots, Json.Variant.takeMembers, EndpointFailure.slot, bind, Except.bind,
        hfailure]

theorem Concern.writes (concern : Concern) :
    variants.Writes nesting concern concern.toJson := by
  cases concern with
  | stalled counter elapsed =>
      refine .intro rfl rfl (by simp [tagName]) ?_
      exact List.forall_mem_cons.mpr ⟨.string _, List.forall_mem_singleton.mpr (.natural _)⟩
  | missingSeries series =>
      exact .intro rfl rfl (by simp [tagName]) (List.forall_mem_singleton.mpr (.string _))
  | memoryUnreadable reason =>
      exact .intro rfl rfl (by simp [tagName]) (List.forall_mem_singleton.mpr (.string _))
  | memoryNotSaved reason =>
      exact .intro rfl rfl (by simp [tagName]) (List.forall_mem_singleton.mpr (.string _))

namespace Report

variable (report : Report)

/-- The members of a document that hold the report. -/
def members : List (String × Json.Value) :=
  [("errors", .array (report.outages.map Outage.toJson)),
    ("warnings", .array (report.concerns.map Concern.toJson))]

theorem fits_members (nesting : ℕ) : ∀ member ∈ report.members, member.2.Fits (nesting + 4) := by
  rw [members, List.forall_mem_cons, List.forall_mem_singleton]
  constructor
  · refine .array fun json hjson => ?_
    obtain ⟨outage, -, rfl⟩ := List.mem_map.mp hjson
    exact outage.writes.fits
  · refine .array fun json hjson => ?_
    obtain ⟨concern, -, rfl⟩ := List.mem_map.mp hjson
    exact concern.writes.fits

theorem fits_toJson (nesting : ℕ) : report.toJson.Fits (nesting + 5) :=
  .object (report.fits_members nesting)

theorem readOutages_text (style : Style) (level : ℕ) {gap : Json.Input} (hgap : IsBlank gap)
    (before : Report) (rest : Json.Input) :
    readOutages before (gap ++ (encode (style.text level
        (.array (report.outages.map Outage.toJson))) ++ rest)) =
      .ok ({ before with outages := report.outages }, rest) := by
  have hlist : Outage.variants.readList depth (gap ++ (encode (style.text level
      (.array (report.outages.map Outage.toJson))) ++ rest)) = .ok (report.outages, rest) :=
    Json.Variants.readList_text style level (fun outage _ => outage.writes) hgap rest
  simp only [readOutages, hlist, bind, Except.bind]

theorem readConcerns_text (style : Style) (level : ℕ) {gap : Json.Input} (hgap : IsBlank gap)
    (before : Report) (rest : Json.Input) :
    readConcerns before (gap ++ (encode (style.text level
        (.array (report.concerns.map Concern.toJson))) ++ rest)) =
      .ok ({ before with concerns := report.concerns }, rest) := by
  have hlist : Concern.variants.readList depth (gap ++ (encode (style.text level
      (.array (report.concerns.map Concern.toJson))) ++ rest)) = .ok (report.concerns, rest) :=
    Json.Variants.readList_text style level (fun concern _ => concern.writes) hgap rest
  simp only [readConcerns, hlist, bind, Except.bind]

theorem reads_members (style : Style) (level : ℕ) :
    record.Reads (report.members.map (memberBytes (style.text level))) {} report :=
  .cons rfl (fun _ rest hgap _ => report.readOutages_text style level hgap {} rest)
    (.cons rfl (fun _ rest hgap _ => report.readConcerns_text style level hgap _ rest) (.nil report))

/-- **A document with the members of a report holds that report**, in either style, whatever other
members it has and whatever blanks follow it. -/
theorem ofDocument_text (style : Style) {front back : List (String × Json.Value)}
    (hothers : ∀ member ∈ front ++ back,
      record.knows member.1 = false ∧ member.2.Fits nesting)
    (hnodup : ((front ++ (report.members ++ back)).map Prod.fst).Nodup) {gap : Json.Input}
    (hgap : IsBlank gap) :
    ofDocument (encode (style.text 0 (.object (front ++ (report.members ++ back)))) ++ gap) =
      .ok report := by
  have hfront := Json.Record.reads_unknown style 1
    (fun member hmember => hothers member (List.mem_append_left back hmember)) ({} : Report)
  have hback := Json.Record.reads_unknown style 1
    (fun member hmember => hothers member (List.mem_append_right front hmember)) report
  have hreads := hfront.append ((report.reads_members style 1).append hback)
  rw [← List.map_append, ← List.map_append] at hreads
  refine Json.Record.readDocument_of_read hgap
    (Json.Record.read_text style 0 hreads hnodup ?_ gap)
  -- the two required fields are the two members
  intro field hfield _
  simp only [record, List.mem_cons, List.not_mem_nil, or_false] at hfield
  rcases hfield with rfl | rfl <;> simp [members]

/-- **The document of a report holds that report**, in either style. -/
theorem ofDocument_toJson (style : Style) :
    ofDocument (encode (style.text 0 report.toJson)) = .ok report := by
  have hnone : ∀ member ∈ ([] ++ [] : List (String × Json.Value)),
      record.knows member.1 = false ∧ member.2.Fits 0 :=
    fun _ hmember => absurd hmember List.not_mem_nil
  have hdocument := report.ofDocument_text style hnone (by simp [members]) Json.isBlank_nil
  rwa [List.append_nil, List.append_nil, List.nil_append] at hdocument

end Report

end ServiceWatch
