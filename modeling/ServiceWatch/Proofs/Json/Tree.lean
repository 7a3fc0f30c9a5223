import ServiceWatch.Json.Tree
import ServiceWatch.Proofs.Json.Float
import ServiceWatch.Proofs.Json.Grammar
import ServiceWatch.Proofs.Json.Style

/-!
# Reading values back as trees

A value that has no numbers but natural ones is written as a phrase of the grammar, in either style
(`Style.forms`), and is read back as the tree that it is (`readTree_text`), as long as its containers
are not nested too deep (`Value.Fits`).

With floating-point numbers in it (`Value.Nests`), a value is read back as another one that has the
same containers and the same names (`Value.reread`, `readTree_reread`): a number becomes what its
text is read as, and `nan` and the infinities become `null`.
-/

namespace ServiceWatch.Json

open Decimal (digitChars)
open Text.Utf8 (encode)

/-- All numbers in the value are natural ones, and fewer than `depth` containers are nested in it. -/
inductive Value.Fits : ℕ → Value → Prop where
  | null {depth : ℕ} : Fits depth .null
  | bool {depth : ℕ} (value : Bool) : Fits depth (.bool value)
  | natural {depth : ℕ} (value : UInt64) : Fits depth (.number (.unsigned value))
  | string {depth : ℕ} (value : String) : Fits depth (.string value)
  | array {depth : ℕ} {elements : List Value}
      (helements : ∀ element ∈ elements, Fits (depth + 1) element) :
      Fits (depth + 2) (.array elements)
  | object {depth : ℕ} {members : List (String × Value)}
      (hmembers : ∀ member ∈ members, Fits (depth + 1) member.2) :
      Fits (depth + 2) (.object members)

/-- No number in the value is a negative integer, and fewer than `depth` containers are nested in
it. -/
inductive Value.Nests : ℕ → Value → Prop where
  | null {depth : ℕ} : Nests depth .null
  | bool {depth : ℕ} (value : Bool) : Nests depth (.bool value)
  | natural {depth : ℕ} (value : UInt64) : Nests depth (.number (.unsigned value))
  | float {depth : ℕ} (value : Binary64) : Nests depth (.number (.float value))
  | string {depth : ℕ} (value : String) : Nests depth (.string value)
  | array {depth : ℕ} {elements : List Value}
      (helements : ∀ element ∈ elements, Nests (depth + 1) element) :
      Nests (depth + 2) (.array elements)
  | object {depth : ℕ} {members : List (String × Value)}
      (hmembers : ∀ member ∈ members, Nests (depth + 1) member.2) :
      Nests (depth + 2) (.object members)

namespace Value

mutual

/-- The value as it is read back. -/
def reread : Value → Value
  | .null => .null
  | .bool value => .bool value
  | .number (.unsigned value) => .number (.unsigned value)
  | .number (.negative magnitude) => .number (.negative magnitude)
  | .number (.float value) => (Json.reread value).elim .null fun again => .number (.float again)
  | .string value => .string value
  | .array elements => .array (rereadElements elements)
  | .object members => .object (rereadMembers members)

/-- The elements as they are read back. -/
def rereadElements : List Value → List Value
  | [] => []
  | element :: rest => element.reread :: rereadElements rest

/-- The members as they are read back. -/
def rereadMembers : List (String × Value) → List (String × Value)
  | [] => []
  | (name, value) :: rest => (name, value.reread) :: rereadMembers rest

end

theorem reread_array (elements : List Value) :
    (array elements).reread = .array (elements.map reread) := by
  have helements : rereadElements elements = elements.map reread := by
    induction elements with
    | nil => rfl
    | cons element rest ih => rw [rereadElements, ih, List.map_cons]
  rw [reread, helements]

theorem reread_object (members : List (String × Value)) :
    (object members).reread = .object (members.map (Prod.map id reread)) := by
  have hmembers : rereadMembers members = members.map (Prod.map id reread) := by
    induction members with
    | nil => rfl
    | cons member rest ih => rw [rereadMembers, ih, List.map_cons]; rfl
  rw [reread, hmembers]

variable {depth : ℕ} {value : Value}

theorem Fits.nests (hfits : value.Fits depth) : value.Nests depth := by
  induction hfits with
  | null => exact .null
  | bool value => exact .bool value
  | natural value => exact .natural value
  | string value => exact .string value
  | array helements ih => exact .array ih
  | object hmembers ih => exact .object ih

/-- Without floating-point numbers a value stays as it is. -/
theorem Fits.reread_eq (hfits : value.Fits depth) : value.reread = value := by
  induction hfits with
  | array helements ih => rw [reread_array, List.map_congr_left ih, List.map_id']
  | object hmembers ih =>
      have hsame : ∀ member ∈ _, Prod.map id reread member = id member := fun member hmember =>
        Prod.ext rfl (ih member hmember)
      rw [reread_object, List.map_congr_left hsame, List.map_id]
  | _ => rfl

end Value

/-! ### Written values are phrases -/

theorem isDigits_encode {cs : List Char} (hcs : Decimal.AreDigits cs) (hne : cs ≠ []) :
    IsDigits (encode cs) := by
  induction cs with
  | nil => exact absurd rfl hne
  | cons c cs ih =>
      have hc := isDigit_of_isDigit (hcs c List.mem_cons_self)
      rw [encode_cons_of_isDigit (hcs c List.mem_cons_self)]
      refine ⟨List.cons_ne_nil _ _, List.forall_mem_cons.mpr ⟨hc, ?_⟩⟩
      cases cs with
      | nil => exact fun _ hbyte => absurd hbyte List.not_mem_nil
      | cons next others =>
          exact (ih (fun d hd => hcs d (List.mem_cons_of_mem c hd)) (List.cons_ne_nil _ _)).2

theorem isMagnitude_digitChars (n : ℕ) : IsMagnitude (encode (digitChars n)) := by
  have hwhole : encode (digitChars n) = [0x30] ∨
      IsDigits (encode (digitChars n)) ∧ (encode (digitChars n)).head? ≠ some 0x30 := by
    rcases Nat.eq_zero_or_pos n with rfl | hpos
    · exact Or.inl rfl
    · have hdigits := Decimal.areDigits_digitChars n
      refine Or.inr ⟨isDigits_encode hdigits Nat.toDigits_ne_nil, ?_⟩
      have hhead := Decimal.head?_digitChars_ne hpos
      cases hcs : digitChars n with
      | nil => simp
      | cons c cs =>
          rw [hcs] at hdigits hhead
          have hc := hdigits c List.mem_cons_self
          rw [encode_cons_of_isDigit hc, List.head?_cons]
          intro heq
          have hascii : c.toNat < 128 := Nat.lt_trans (toNat_of_isDigit hc).2 (by decide)
          have hchar := Text.Utf8.eq_of_byte_eq (d := '0') hascii (by decide)
            (Option.some_inj.mp heq)
          exact hhead (by rw [List.head?_cons, hchar])
  have hmagnitude := IsMagnitude.intro hwhole .nil .nil
  rwa [List.append_nil, List.append_nil] at hmagnitude

/-- The text of an item: what stands in front of a value, and the value. -/
def IsItem (bracket : Bracket) (text : Input) : Prop :=
  ∃ head value, IsHead bracket head ∧ Forms .value value ∧ text = head ++ value

variable {bracket : Bracket} {text : Input} {others : List Input}

/-- Items in a layout are a phrase. -/
theorem Layout.forms_items (layout : Layout)
    (htexts : ∀ other ∈ text :: others, IsItem bracket other) :
    Forms (.items bracket)
      (encode layout.before ++ (text ++ layout.items bracket false others [])) := by
  induction others generalizing text with
  | nil =>
      obtain ⟨head, value, hhead, hvalue, rfl⟩ := htexts text List.mem_cons_self
      rw [List.append_assoc, ← List.append_assoc]
      exact .last (hhead.gap_append layout.isBlank_before) hvalue layout.isBlank_closing
  | cons next others ih =>
      obtain ⟨head, value, hhead, hvalue, rfl⟩ := htexts text List.mem_cons_self
      have hitems := ih fun other hother => htexts other (List.mem_cons_of_mem _ hother)
      rw [List.append_assoc, ← List.append_assoc]
      exact .more (hhead.gap_append layout.isBlank_before) hvalue isBlank_nil hitems

theorem Layout.forms_container (layout : Layout) (bracket : Bracket) {texts : List Input}
    (htexts : ∀ other ∈ texts, IsItem bracket other) :
    Forms .value (bracket.opener :: layout.items bracket true texts []) := by
  cases texts with
  | nil => exact Forms.empty isBlank_nil
  | cons text others => exact .container (layout.forms_items htexts)

theorem isItem_member (layout : Layout) (name : String) (htext : Forms .value text) :
    IsItem .curly (layout.member (name, text)) := by
  have hhead := IsHead.member isBlank_nil (spells_spelling name).isInside isBlank_nil
    layout.isBlank_behindColon
  refine ⟨_, text, hhead, htext, ?_⟩
  simp [Layout.member]

/-- **A written value is a phrase of the grammar**, in either style. -/
theorem Style.forms (style : Style) {depth : ℕ} {value : Value} (hfits : value.Fits depth)
    (level : ℕ) : Forms .value (encode (style.text level value)) := by
  induction hfits generalizing level with
  | null =>
      rw [style.text_scalar level .null trivial]
      exact .null
  | bool value =>
      rw [style.text_scalar level (.bool value) trivial]
      cases value with
      | true => exact .true
      | false => exact .false
  | natural value =>
      rw [style.text_number]
      exact .number (isMagnitude_digitChars value.toNat)
  | string value =>
      rw [style.text_scalar level (.string value) trivial, Value.compact, encode_stringText]
      exact .string (spells_spelling value).isInside
  | @array depth elements helements ih =>
      have hlist := style.encode_array level elements []
      rw [List.append_nil] at hlist
      rw [hlist]
      refine (style.layout level).forms_container .square fun text htext => ?_
      obtain ⟨element, helement, rfl⟩ := List.mem_map.mp htext
      exact ⟨[], _, .element isBlank_nil, ih element helement (level + 1), rfl⟩
  | @object depth members hmembers ih =>
      have hobject := style.encode_object level members []
      rw [List.append_nil] at hobject
      rw [hobject]
      refine (style.layout level).forms_container .curly fun text htext => ?_
      rw [List.map_map] at htext
      obtain ⟨member, hmember, rfl⟩ := List.mem_map.mp htext
      exact isItem_member _ member.1 (ih member hmember (level + 1))

/-- Members of unknown names are passed over. -/
theorem Record.reads_unknown {σ : Type} {record : Record σ} (style : Style) {depth : ℕ} (level : ℕ)
    {members : List (String × Value)}
    (hmembers : ∀ member ∈ members, record.knows member.1 = false ∧ member.2.Fits depth)
    (value : σ) :
    record.Reads (members.map (memberBytes (style.text level))) value value := by
  induction members with
  | nil => exact .nil value
  | cons member members ih =>
      obtain ⟨hknows, hfits⟩ := hmembers member List.mem_cons_self
      have hfind : record.fields.find? (fun field => field.name == member.1) = none :=
        Option.isSome_eq_false_iff.mp hknows |> Option.isNone_iff_eq_none.mp
      exact .skip hfind (fun gap rest hgap hrest => (style.forms hfits level).skipValue hgap hrest)
        (ih fun other hother => hmembers other (List.mem_cons_of_mem member hother))

/-! ### Reading trees -/

variable {depth fuel : ℕ} {first : Bool} {gap rest : Input}

/-- The elements of a list are read up to the closing bracket, if each of them is. -/
theorem readTreesWith_items (layout : Layout) (first : Bool) {values : List Value}
    {text : Value → Input} (hbegins : ∀ value ∈ values, BeginsValue (text value))
    (hread : ∀ value ∈ values, ∀ fuel rest, 2 * (text value ++ rest).length ≤ fuel → Stops rest →
      readTreeWith fuel depth (text value ++ rest) = .ok (value.reread, rest))
    (before : List Value)
    (hfuel : 2 * (layout.items .square first (values.map text) rest).length < fuel) :
    readTreesWith fuel depth first before (layout.items .square first (values.map text) rest) =
      .ok (before.reverse ++ values.map Value.reread, 0x5D :: rest) := by
  induction values generalizing first before fuel with
  | nil =>
      obtain ⟨fuel, rfl⟩ := Nat.exists_eq_succ_of_ne_zero (by omega : fuel ≠ 0)
      rw [List.map_nil, readTreesWith, layout.readElement?_closing]
      simp
  | cons value values ih =>
      obtain ⟨fuel, rfl⟩ := Nat.exists_eq_succ_of_ne_zero (by omega : fuel ≠ 0)
      have hvalue := hbegins value List.mem_cons_self
      have hlength : 0 < (text value).length := by
        obtain ⟨byte, tail, htext, -⟩ := hvalue
        rw [htext]
        exact Nat.succ_pos _
      simp only [List.map_cons, Layout.items, List.length_append] at hfuel
      have hstops := layout.stops_items .square (values.map text) rest
      have helement := hread value List.mem_cons_self fuel _
        (by rw [List.length_append]; omega) hstops
      rw [List.map_cons, readTreesWith, layout.readElement?_element first hvalue]
      simp only [helement]
      rw [ih false (fun other hother => hbegins other (List.mem_cons_of_mem value hother))
        (fun other hother => hread other (List.mem_cons_of_mem value hother)) _ (by omega)]
      simp

/-- The members of an object are read up to the closing brace, if the value of each of them is. -/
theorem readMembersWith_members (layout : Layout) (first : Bool)
    {members : List (String × Value)} {text : Value → List Char}
    (hread : ∀ member ∈ members, ∀ fuel gap rest, IsBlank gap →
      2 * (encode (text member.2) ++ rest).length ≤ fuel → Stops rest →
        readTreeWith fuel depth (gap ++ (encode (text member.2) ++ rest)) =
          .ok (member.2.reread, rest))
    (before : List (String × Value))
    (hfuel : 2 * (layout.members first (members.map (memberBytes text)) rest).length < fuel) :
    readMembersWith fuel depth first before
        (layout.members first (members.map (memberBytes text)) rest) =
      .ok (before.reverse ++ members.map (Prod.map id Value.reread), 0x7D :: rest) := by
  induction members generalizing first before fuel with
  | nil =>
      obtain ⟨fuel, rfl⟩ := Nat.exists_eq_succ_of_ne_zero (by omega : fuel ≠ 0)
      rw [List.map_nil, readMembersWith, layout.readName?_closing]
      simp
  | cons member members ih =>
      obtain ⟨fuel, rfl⟩ := Nat.exists_eq_succ_of_ne_zero (by omega : fuel ≠ 0)
      have hlength := layout.length_text_lt_length_members first member.1
        (encode (text member.2)) (members.map (memberBytes text)) rest
      rw [List.map_cons, memberBytes] at hfuel
      have hvalue := hread member List.mem_cons_self fuel _
        (layout.members false (members.map (memberBytes text)) rest) layout.isBlank_behindColon
        (by rw [List.length_append]; omega) (layout.stops_members _ rest)
      rw [List.map_cons, memberBytes, readMembersWith, layout.readName?_member]
      simp only [readColon_colon, hvalue]
      rw [ih false (fun other hother => hread other (List.mem_cons_of_mem member hother)) _
        (by omega)]
      simp [Prod.map]

theorem readScalar_string (value : String) (rest : Input) :
    readScalar (encode (stringText value) ++ rest) = .ok (.string value, rest) := by
  have hdigit : isDigit 0x22 = false := by decide
  rw [encode_stringText, List.cons_append, List.append_assoc, List.singleton_append]
  simp [readScalar, hdigit, readString_spelling, bind, Except.bind]

/-- A number literal is read as it is read where nothing else is expected. -/
theorem readScalar_of_beginsNumber {s : Input} (hs : BeginsNumber s) {numeral : Numeral}
    (expected : String) (hnumber : readNumber expected s = .ok (numeral, rest)) :
    readScalar s = .ok (.number numeral, rest) := by
  have hskip := hs.skipGap
  obtain ⟨byte, tail, rfl, hbyte⟩ := hs
  rw [readNumber, hskip] at hnumber
  rcases hbyte with rfl | hdigit
  · have hnumeral : readNumeral true tail = .ok (numeral, rest) := hnumber
    simp [readScalar, hnumeral, bind, Except.bind]
  · obtain ⟨-, hminus, hnull⟩ := isGap_of_isDigit hdigit
    have htrue : byte ≠ 0x74 := ne_of_isDigit hdigit (by decide)
    have hfalse : byte ≠ 0x66 := ne_of_isDigit hdigit (by decide)
    simp only [if_neg hminus, if_pos hdigit] at hnumber
    simp [readScalar, hnull, htrue, hfalse, hminus, hdigit, hnumber, bind, Except.bind]

theorem readTreeWith_scalar {byte : UInt8} (hbyte : isGap byte = false) (hsquare : byte ≠ 0x5B)
    (hcurly : byte ≠ 0x7B) (hgap : IsBlank gap) (tail : Input) :
    readTreeWith (fuel + 1) depth (gap ++ byte :: tail) = readScalar (byte :: tail) := by
  rw [readTreeWith, skipGap_append hgap, skipGap_of_not_isGap hbyte]
  simp only [if_neg hsquare, if_neg hcurly]

theorem deeper_add_two (depth : ℕ) (s : Input) : deeper (depth + 2) s = .ok (depth + 1) := by
  rw [deeper, if_neg (by omega)]
  rfl

/-- A number is read as a tree of its own. -/
theorem readTreeWith_number {s : Input} (hs : BeginsNumber s) {numeral : Numeral}
    (expected : String) (hnumber : readNumber expected s = .ok (numeral, rest))
    (hgap : IsBlank gap) :
    readTreeWith (fuel + 1) depth (gap ++ s) = .ok (.number numeral, rest) := by
  rw [← readScalar_of_beginsNumber hs expected hnumber]
  obtain ⟨byte, tail, rfl, rfl | hdigit⟩ := hs
  · exact readTreeWith_scalar (by decide) (by decide) (by decide) hgap tail
  · exact readTreeWith_scalar (isGap_of_isDigit hdigit).1 (ne_of_isDigit hdigit (by decide))
      (ne_of_isDigit hdigit (by decide)) hgap tail

theorem BeginsNumber.beginsValue {s : Input} (hs : BeginsNumber s) : BeginsValue s := by
  obtain ⟨byte, tail, rfl, rfl | hdigit⟩ := hs
  · exact ⟨_, _, rfl, by decide, by decide⟩
  · exact ⟨_, _, rfl, (isGap_of_isDigit hdigit).1, ne_of_isDigit hdigit (by decide)⟩

/-- The text of a value begins as a value does. -/
theorem Style.beginsValue (style : Style) {value : Value} (hnests : value.Nests depth)
    (level : ℕ) : BeginsValue (encode (style.text level value)) := by
  cases hnests with
  | null =>
      rw [style.text_scalar level .null trivial]
      exact Forms.null.beginsValue
  | bool value =>
      rw [style.text_scalar level (.bool value) trivial]
      cases value with
      | true => exact Forms.true.beginsValue
      | false => exact Forms.false.beginsValue
  | natural value =>
      have hbegins := beginsNumber_digitChars value []
      rw [List.append_nil] at hbegins
      rw [style.text_number]
      exact hbegins.beginsValue
  | float value =>
      rw [style.text_number, Numeral.text]
      cases hfinite : value.isFinite with
      | true =>
          obtain ⟨again, -, hread⟩ := readNumber_floatText hfinite
          have hbegins := (hread [] stops_nil).1
          rw [List.append_nil] at hbegins
          exact hbegins.beginsValue
      | false =>
          rw [floatText_of_not_isFinite hfinite]
          exact Forms.null.beginsValue
  | string value =>
      rw [style.text_scalar level (.string value) trivial, Value.compact, encode_stringText]
      exact ⟨_, _, rfl, by decide, by decide⟩
  | @array depth elements helements =>
      have hlist := style.encode_array level elements []
      rw [List.append_nil] at hlist
      rw [hlist]
      exact ⟨_, _, rfl, by decide, by decide⟩
  | @object depth members hmembers =>
      have hobject := style.encode_object level members []
      rw [List.append_nil] at hobject
      rw [hobject]
      exact ⟨_, _, rfl, by decide, by decide⟩

theorem exists_succ_of_length_le (htext : BeginsValue text)
    (hfuel : 2 * (text ++ rest).length ≤ fuel) : ∃ smaller, fuel = smaller + 1 := by
  obtain ⟨byte, tail, rfl, -⟩ := htext
  rw [List.cons_append, List.length_cons] at hfuel
  exact ⟨fuel - 1, by omega⟩

/-- **The text of a value is read as what the value is reread as**, whatever stands behind it. -/
theorem readTreeWith_reread (style : Style) {value : Value} (hnests : value.Nests depth)
    (level : ℕ) (hgap : IsBlank gap)
    (hfuel : 2 * (encode (style.text level value) ++ rest).length ≤ fuel + 1)
    (hrest : Stops rest) :
    readTreeWith (fuel + 1) depth (gap ++ (encode (style.text level value) ++ rest)) =
      .ok (value.reread, rest) := by
  induction hnests generalizing level fuel gap rest with
  | null =>
      rw [style.text_scalar level .null trivial]
      exact readTreeWith_scalar (by decide) (by decide) (by decide) hgap _
  | bool value =>
      rw [style.text_scalar level (.bool value) trivial]
      cases value with
      | true => exact readTreeWith_scalar (by decide) (by decide) (by decide) hgap _
      | false => exact readTreeWith_scalar (by decide) (by decide) (by decide) hgap _
  | natural value =>
      rw [style.text_number, Numeral.text]
      exact readTreeWith_number (beginsNumber_digitChars value rest) "u64"
        (readNumber_digitChars "u64" value hrest) hgap
  | float value =>
      rw [style.text_number, Numeral.text, Value.reread]
      cases hfinite : value.isFinite with
      | true =>
          obtain ⟨again, hreread, hread⟩ := readNumber_floatText hfinite
          obtain ⟨hbegins, hnumber⟩ := hread rest hrest
          rw [hreread]
          exact readTreeWith_number hbegins "f64" (hnumber "f64") hgap
      | false =>
          rw [floatText_of_not_isFinite hfinite, reread_of_not_isFinite hfinite]
          exact readTreeWith_scalar (by decide) (by decide) (by decide) hgap _
  | string value =>
      have hscalar := readScalar_string value rest
      rw [style.text_scalar level (.string value) trivial, Value.compact]
      rw [encode_stringText] at hscalar ⊢
      exact (readTreeWith_scalar (by decide) (by decide) (by decide) hgap _).trans hscalar
  | @array depth elements helements ih =>
      have hbegins : ∀ element ∈ elements, BeginsValue (encode (style.text (level + 1) element)) :=
        fun element helement => style.beginsValue (helements element helement) (level + 1)
      have hread : ∀ element ∈ elements, ∀ fuel rest,
          2 * (encode (style.text (level + 1) element) ++ rest).length ≤ fuel → Stops rest →
            readTreeWith fuel (depth + 1) (encode (style.text (level + 1) element) ++ rest) =
              .ok (element.reread, rest) := by
        intro element helement fuel rest hfuel hrest
        obtain ⟨smaller, rfl⟩ := exists_succ_of_length_le (hbegins element helement) hfuel
        exact ih element helement (level + 1) isBlank_nil hfuel hrest
      -- the bracket takes a byte and a unit of fuel, so more than enough is left for the elements
      rw [style.encode_array level elements rest] at hfuel ⊢
      rw [List.length_cons] at hfuel
      rw [readTreeWith, skipGap_append hgap, skipGap_of_not_isGap (by decide)]
      simp only [if_true, deeper_add_two]
      rw [readTreesWith_items (style.layout level) true hbegins hread [] (by omega)]
      simp only [closeList_bracket, Value.reread_array]
      rfl
  | @object depth members hmembers ih =>
      have hread : ∀ member ∈ members, ∀ fuel gap rest, IsBlank gap →
          2 * (encode (style.text (level + 1) member.2) ++ rest).length ≤ fuel → Stops rest →
            readTreeWith fuel (depth + 1)
                (gap ++ (encode (style.text (level + 1) member.2) ++ rest)) =
              .ok (member.2.reread, rest) := by
        intro member hmember fuel gap rest hgap hfuel hrest
        have hbegins := style.beginsValue (hmembers member hmember) (level + 1)
        obtain ⟨smaller, rfl⟩ := exists_succ_of_length_le hbegins hfuel
        exact ih member hmember (level + 1) hgap hfuel hrest
      rw [style.encode_object level members rest] at hfuel ⊢
      rw [List.length_cons] at hfuel
      rw [readTreeWith, skipGap_append hgap, skipGap_of_not_isGap (by decide)]
      simp only [if_neg (by decide : (0x7B : UInt8) ≠ 0x5B), if_true, deeper_add_two]
      rw [readMembersWith_members (style.layout level) true hread [] (by omega)]
      simp only [closeObject_brace, Value.reread_object]
      rfl

theorem readTree_reread (style : Style) {value : Value} (hnests : value.Nests depth) (level : ℕ)
    (hgap : IsBlank gap) (hrest : Stops rest) :
    readTree depth (gap ++ (encode (style.text level value) ++ rest)) =
      .ok (value.reread, rest) := by
  refine readTreeWith_reread style hnests level hgap ?_ hrest
  simp only [List.length_append]
  omega

/-- **A value is read as it was written**, if it has no floating-point numbers. -/
theorem readTree_text (style : Style) {value : Value} (hfits : value.Fits depth) (level : ℕ)
    (hgap : IsBlank gap) (hrest : Stops rest) :
    readTree depth (gap ++ (encode (style.text level value) ++ rest)) = .ok (value, rest) := by
  rw [readTree_reread style hfits.nests level hgap hrest, hfits.reread_eq]

/-! ### Control characters -/

theorem le_of_mem_controlCode {n : ℕ} (hn : n < 0x20) :
    ∀ written ∈ controlCode n, 0x20 ≤ written.toNat := by
  have hdigits : ∀ n < 0x10, 0x20 ≤ (Nat.digitChar n).toNat := by decide
  have hhigh := hdigits (n / 16) (by omega)
  have hlow := hdigits (n % 16) (by omega)
  simp [controlCode, hhigh, hlow]

theorem le_of_mem_escapeChar (c : Char) : ∀ written ∈ escapeChar c, 0x20 ≤ written.toNat := by
  unfold escapeChar
  split_ifs with hquote hslash hbackspace htab hline hpage hreturn hcontrol
  any_goals simp
  · exact le_of_mem_controlCode hcontrol
  · exact Nat.not_lt.mp hcontrol

theorem le_of_mem_stringText (value : String) : ∀ c ∈ stringText value, 0x20 ≤ c.toNat := by
  rw [stringText, List.forall_mem_cons, List.forall_mem_append]
  refine ⟨by decide, ?_, by simp⟩
  intro c hc
  obtain ⟨original, -, hwritten⟩ := List.mem_flatMap.mp hc
  exact le_of_mem_escapeChar original c hwritten

/-- **A compact text has no control characters.** -/
theorem Value.Fits.le_of_mem_compact {value : Value} (hfits : value.Fits depth) :
    ∀ c ∈ value.compact, 0x20 ≤ c.toNat := by
  induction hfits with
  | null => simp [Value.compact]
  | bool value => cases value <;> simp [Value.compact]
  | natural value =>
      intro c hc
      have hdigit := (toNat_of_isDigit (Decimal.areDigits_digitChars value.toNat c hc)).1
      omega
  | string value => exact le_of_mem_stringText value
  | @array depth elements helements ih =>
      rw [Value.compact, List.forall_mem_cons, List.forall_mem_append]
      refine ⟨by decide, ?_, by simp⟩
      cases elements with
      | nil => simp [Value.compactElements]
      | cons element elements =>
          exact Layout.compact_elements.forall_mem (by decide) (by simp [Layout.compact]) ih
  | @object depth members hmembers ih =>
      rw [Value.compact, List.forall_mem_cons, List.forall_mem_append]
      refine ⟨by decide, ?_, by simp⟩
      cases members with
      | nil => simp [Value.compactMembers]
      | cons member members =>
          refine Layout.compact_members.forall_mem (by decide) (by simp [Layout.compact]) ?_
          intro other hother
          rw [memberText, List.forall_mem_append, List.forall_mem_cons, List.forall_mem_append]
          exact ⟨le_of_mem_stringText other.1, by decide, by simp [Layout.compact],
            ih other hother⟩

end ServiceWatch.Json
