import ServiceWatch.Proofs.Json.Tree
import ServiceWatch.Report.Json

/-!
# Reading tagged values back

A type that is written as tagged objects has to show of each of its values only that the variant of
the tag makes the value of the other members (`Variants.Writes`).  Then the value is taken out of its
tree, and read back from its text, alone or in a list.
-/

namespace ServiceWatch.Json.Variants

open Text.Utf8 (encode)

variable {α : Type} {type : Variants α} {depth : ℕ} {value : α} {json : Value} {tag : String}
  {variant : Variant α} {members : List (String × Value)}

/-- The value is written as an object with the tag of a variant that makes the value of the other
members, none of which is called as the tag is and all of which fit the depth. -/
inductive Writes (type : Variants α) (depth : ℕ) : α → Value → Prop where
  | intro {tag : String} {members : List (String × Value)} {variant : Variant α} {value : α}
      (hvariant : type.withTag tag = .ok variant)
      (hmembers : variant.ofMembers members = .ok value)
      (hnames : ∀ member ∈ members, member.1 ≠ tagName)
      (hfits : ∀ member ∈ members, member.2.Fits depth) :
      Writes type depth value (tagged tag members)

theorem Writes.fits (hwrites : type.Writes (depth + 1) value json) : json.Fits (depth + 2) := by
  obtain ⟨-, -, -, hfits⟩ := hwrites
  exact .object (List.forall_mem_cons.mpr ⟨.string _, hfits⟩)

/-! ### Trees -/

theorem splitTag_some (hnames : ∀ member ∈ members, member.1 ≠ tagName)
    (before : List (String × Value)) :
    type.splitTag (some variant) before members = .ok (some variant, before.reverse ++ members) := by
  induction members generalizing before with
  | nil => simp [splitTag]
  | cons member members ih =>
      obtain ⟨name, value⟩ := member
      have hname : (name == tagName) = false := beq_false_of_ne (hnames _ List.mem_cons_self)
      rw [splitTag, hname]
      simp only [Bool.false_eq_true, if_false]
      rw [ih (fun other hother => hnames other (List.mem_cons_of_mem _ hother))]
      simp

/-- **A tagged value is taken out of its tree.** -/
theorem Writes.ofValue (hwrites : type.Writes depth value json) : type.ofValue json = .ok value := by
  obtain ⟨hvariant, hmembers, hnames, -⟩ := hwrites
  simp only [tagged, Variants.ofValue, splitTag, beq_self_eq_true, if_true, Option.isSome_none,
    Bool.false_eq_true, if_false, variantOf, hvariant]
  rw [splitTag_some hnames]
  exact hmembers

/-! ### Texts -/

variable (style : Style) (level : ℕ) {gap rest : Input}

/-- Behind the tag, the other members are read as trees. -/
theorem readTagged_some (layout : Layout) (first : Bool) {fuel : ℕ}
    (hnames : ∀ member ∈ members, member.1 ≠ tagName)
    (hfits : ∀ member ∈ members, member.2.Fits depth) (before : List (String × Value))
    (hfuel : members.length < fuel) (rest : Input) :
    type.readTagged depth fuel first (some variant) before
        (layout.members first (members.map (memberBytes (style.text level))) rest) =
      .ok ((some variant, before.reverse ++ members), 0x7D :: rest) := by
  induction members generalizing before fuel first with
  | nil =>
      obtain ⟨fuel, rfl⟩ := Nat.exists_eq_succ_of_ne_zero (by omega : fuel ≠ 0)
      rw [List.map_nil, readTagged, layout.readName?_closing]
      simp
  | cons member members ih =>
      obtain ⟨fuel, rfl⟩ := Nat.exists_eq_succ_of_ne_zero (by omega : fuel ≠ 0)
      have hname : (member.1 == tagName) = false :=
        beq_false_of_ne (hnames member List.mem_cons_self)
      have htree := readTree_text style (hfits member List.mem_cons_self) level
        layout.isBlank_behindColon
        (layout.stops_members (members.map (memberBytes (style.text level))) rest)
      rw [List.map_cons, memberBytes, readTagged, layout.readName?_member]
      simp only [hname, Bool.false_eq_true, if_false, readColon_colon, htree]
      rw [ih false (fun other hother => hnames other (List.mem_cons_of_mem _ hother))
        (fun other hother => hfits other (List.mem_cons_of_mem _ hother)) _
        (by simpa using hfuel)]
      simp

theorem readTag_text (hvariant : type.withTag tag = .ok variant) (hgap : IsBlank gap)
    (rest : Input) :
    type.readTag (gap ++ (encode (style.text level (.string tag)) ++ rest)) =
      .ok (variant, rest) := by
  have htext : readText tagExpected (gap ++ (encode (style.text level (.string tag)) ++ rest)) =
      .ok (tag, rest) := by
    unfold readText
    rw [style.text_scalar level (.string tag) trivial, Value.compact, encode_stringText,
      skipGap_append hgap, List.cons_append, skipGap_of_not_isGap (by decide)]
    simp [readString_spelling]
  simp only [readTag, htext, bind, Except.bind, hvariant]

/-- The tag is read first, and tells how the other members are read. -/
theorem readTagged_tagged (layout : Layout) {fuel : ℕ} (hvariant : type.withTag tag = .ok variant)
    (hnames : ∀ member ∈ members, member.1 ≠ tagName)
    (hfits : ∀ member ∈ members, member.2.Fits depth) (hfuel : members.length < fuel)
    (rest : Input) :
    type.readTagged depth (fuel + 1) true none []
        (layout.members true
          (((tagName, .string tag) :: members).map (memberBytes (style.text level))) rest) =
      .ok ((some variant, members), 0x7D :: rest) := by
  have htag := readTag_text style level hvariant layout.isBlank_behindColon
    (layout.members false (members.map (memberBytes (style.text level))) rest)
  rw [List.map_cons, memberBytes, readTagged, layout.readName?_member]
  simp only [beq_self_eq_true, if_true, Option.isSome_none, Bool.false_eq_true, if_false,
    readColon_colon, htag]
  exact readTagged_some style level layout false hnames hfits [] hfuel rest

/-- **A tagged value is read back from its text.** -/
theorem Writes.read_text (hwrites : type.Writes (depth + 1) value json) (rest : Input) :
    type.read (depth + 2) (encode (style.text level json) ++ rest) = .ok (.ok value, rest) := by
  obtain @⟨tag, members, variant, value, hvariant, hmembers, hnames, hfits⟩ := hwrites
  have hlength := (style.layout level).length_lt_length_members true
    (((tagName, .string tag) :: members).map (memberBytes (style.text (level + 1)))) rest
  rw [List.length_map, List.length_cons, Bool.toNat_true] at hlength
  -- the tag is a member like the others to the layout, but not to the reader
  have htagged := readTagged_tagged style (level + 1) (style.layout level) hvariant hnames hfits
    (Nat.lt_of_succ_lt_succ hlength) rest
  rw [tagged, style.encode_object]
  unfold read
  rw [skipGap_of_not_isGap (by decide)]
  simp only [deeper_add_two, bind, Except.bind, htagged, closeObject_brace, hmembers]

/-! ### Lists -/

variable {values : List α} {toJson : α → Value}

theorem readElements_items (layout : Layout) (first : Bool) {fuel : ℕ}
    (hwrites : ∀ value ∈ values, type.Writes (depth + 1) value (toJson value))
    (before : List α) (hfuel : values.length < fuel) (rest : Input) :
    type.readElements (depth + 2) fuel first before
        (layout.items .square first
          (values.map fun value => encode (style.text level (toJson value))) rest) =
      .ok (before.reverse ++ values, 0x5D :: rest) := by
  induction values generalizing before fuel first with
  | nil =>
      obtain ⟨fuel, rfl⟩ := Nat.exists_eq_succ_of_ne_zero (by omega : fuel ≠ 0)
      rw [List.map_nil, readElements, layout.readElement?_closing]
      simp
  | cons value values ih =>
      obtain ⟨fuel, rfl⟩ := Nat.exists_eq_succ_of_ne_zero (by omega : fuel ≠ 0)
      have hvalue := hwrites value List.mem_cons_self
      have hbegins := (style.forms hvalue.fits level).beginsValue
      rw [List.map_cons, readElements, layout.readElement?_element first hbegins]
      simp only [hvalue.read_text style level]
      rw [ih false (fun other hother => hwrites other (List.mem_cons_of_mem value hother)) _
        (by simpa using hfuel)]
      simp

/-- **A list of tagged values is read back from its text**, whatever blanks stand in front of it. -/
theorem readList_text (hwrites : ∀ value ∈ values, type.Writes (depth + 1) value (toJson value))
    (hgap : IsBlank gap) (rest : Input) :
    type.readList (depth + 3)
        (gap ++ (encode (style.text level (.array (values.map toJson))) ++ rest)) =
      .ok (values, rest) := by
  have hlength := (style.layout level).length_lt_length_items .square true
    (values.map fun value => encode (style.text (level + 1) (toJson value))) rest
  rw [List.length_map, Bool.toNat_true] at hlength
  have hitems := readElements_items style (level + 1) (style.layout level) true hwrites [] hlength
    rest
  rw [style.encode_array, List.map_map]
  unfold readList
  rw [skipGap_append hgap, skipGap_of_not_isGap (by decide)]
  simp only [deeper_add_two, bind, Except.bind, Function.comp_def, hitems, closeList_bracket,
    List.reverse_nil, List.nil_append]

end ServiceWatch.Json.Variants
