import ServiceWatch.Proofs.Json.Object

/-!
# The two styles of a document

A value is written without blanks (`Style.compact`), or with a line for each item of a container
(`Style.pretty`).  What a reader needs to know of either style is the same: a value that is no
container is written in one way, and a container is written in a layout, with its items in the same
style one level deeper.  A record reads an object of either style whole (`Record.read_text`).
-/

namespace ServiceWatch.Json

open Text.Utf8 (encode encode_append encode_cons_of_ascii)

/-- A member with the bytes of its value. -/
def memberBytes (text : Value → List Char) (member : String × Value) : String × Input :=
  (member.1, encode (text member.2))

/-! ### Items -/

section Items

variable {α : Type} {layout : Layout} {item : α → List Char} {write : List α → List Char}

/-- The items of a container are written in the layout, each by `item`. -/
structure Layout.Writes (layout : Layout) (item : α → List Char) (write : List α → List Char) :
    Prop where
  last : ∀ only, write [only] = item only
  more : ∀ front next others,
    write (front :: next :: others) =
      item front ++ ',' :: (layout.before ++ write (next :: others))

theorem Layout.Writes.encode_items (hwrites : layout.Writes item write) (bracket : Bracket)
    (front : α) (others : List α) (rest : Input) :
    encode (write (front :: others)) ++ (encode layout.closing ++ bracket.closer :: rest) =
      encode (item front) ++
        layout.items bracket false (others.map fun other => encode (item other)) rest := by
  induction others generalizing front with
  | nil =>
      rw [hwrites.last]
      rfl
  | cons next others ih =>
      rw [hwrites.more, encode_append, encode_cons_of_ascii (by decide), encode_append,
        List.append_assoc, List.cons_append, List.append_assoc, ih next]
      rfl

/-- What holds of the commas, of what stands in front of the items and of the items holds of all. -/
theorem Layout.Writes.forall_mem {P : Char → Prop} (hwrites : layout.Writes item write)
    (hcomma : P ',') (hbefore : ∀ c ∈ layout.before, P c) {front : α} {others : List α}
    (hitem : ∀ other ∈ front :: others, ∀ c ∈ item other, P c) :
    ∀ c ∈ write (front :: others), P c := by
  induction others generalizing front with
  | nil =>
      rw [hwrites.last]
      exact hitem front List.mem_cons_self
  | cons next others ih =>
      rw [hwrites.more, List.forall_mem_append, List.forall_mem_cons, List.forall_mem_append]
      exact ⟨hitem front List.mem_cons_self, hcomma, hbefore,
        ih fun other hother => hitem other (List.mem_cons_of_mem front hother)⟩

/-- Between the brackets stand the items and, behind the last, what the layout closes with. -/
theorem Layout.Writes.encode_container (hwrites : layout.Writes item write) (bracket : Bracket)
    (front : α) (others : List α) {close : Char}
    (hclose : encode [close] = [bracket.closer]) (rest : Input) :
    encode (layout.before ++ write (front :: others) ++ layout.closing ++ [close]) ++ rest =
      layout.items bracket true ((front :: others).map fun other => encode (item other)) rest := by
  have hitems := hwrites.encode_items bracket front others rest
  simp only [encode_append, hclose, List.append_assoc, List.singleton_append, hitems]
  rfl

end Items

def memberText (layout : Layout) (text : Value → List Char) (member : String × Value) : List Char :=
  stringText member.1 ++ ':' :: (layout.behindColon ++ text member.2)

theorem encode_memberText (layout : Layout) (text : Value → List Char) (member : String × Value) :
    encode (memberText layout text member) = layout.member (memberBytes text member) := by
  simp only [memberText, Layout.member, memberBytes, encode_append, encode_stringText,
    encode_cons_of_ascii (c := ':') (by decide), List.append_assoc, List.cons_append]
  rfl

/-! ### Styles -/

/-- The value is no container. -/
def Value.IsScalar : Value → Prop
  | .array _ => False
  | .object _ => False
  | _ => True

/-- A way to write values, at each depth. -/
structure Style where
  text : ℕ → Value → List Char
  layout : ℕ → Layout
  text_scalar : ∀ depth value, value.IsScalar → text depth value = value.compact
  encode_array : ∀ depth elements rest,
    encode (text depth (.array elements)) ++ rest =
      0x5B :: (layout depth).items .square true
        (elements.map fun element => encode (text (depth + 1) element)) rest
  encode_object : ∀ depth members rest,
    encode (text depth (.object members)) ++ rest =
      0x7B :: (layout depth).members true (members.map (memberBytes (text (depth + 1)))) rest

theorem Style.text_number (style : Style) (depth : ℕ) (numeral : Numeral) :
    style.text depth (.number numeral) = numeral.text :=
  style.text_scalar depth (.number numeral) trivial

theorem Layout.Writes.encode_array {layout : Layout} {text : Value → List Char}
    {write : List Value → List Char} (hwrites : layout.Writes text write) (front : Value)
    (others : List Value) (rest : Input) :
    encode ('[' :: (layout.before ++ write (front :: others) ++ layout.closing ++ [']'])) ++ rest =
      0x5B :: layout.items .square true ((front :: others).map fun other => encode (text other))
        rest := by
  rw [encode_cons_of_ascii (by decide), List.cons_append,
    hwrites.encode_container .square front others rfl rest]
  rfl

theorem Layout.Writes.encode_object {layout : Layout} {text : Value → List Char}
    {write : List (String × Value) → List Char}
    (hwrites : layout.Writes (memberText layout text) write) (front : String × Value)
    (others : List (String × Value)) (rest : Input) :
    encode ('{' :: (layout.before ++ write (front :: others) ++ layout.closing ++ ['}'])) ++ rest =
      0x7B :: layout.members true ((front :: others).map (memberBytes text)) rest := by
  rw [encode_cons_of_ascii (by decide), List.cons_append,
    hwrites.encode_container .curly front others rfl rest, Layout.members, List.map_map]
  simp only [encode_memberText]
  rfl

theorem isBlank_encode_newLine (depth : ℕ) : IsBlank (encode (Value.newLine depth)) := by
  have hspaces : encode (List.replicate (2 * depth) ' ') = List.replicate (2 * depth) 0x20 := by
    induction 2 * depth with
    | zero => rfl
    | succ spaces ih =>
        rw [List.replicate_succ, encode_cons_of_ascii (by decide), ih, List.replicate_succ]
        rfl
  intro byte hbyte
  rw [Value.newLine, encode_cons_of_ascii (by decide), hspaces] at hbyte
  rcases List.mem_cons.mp hbyte with rfl | hspace
  · decide
  · rw [List.eq_of_mem_replicate hspace]
    decide

/-- The layout without blanks. -/
def Layout.compact : Layout := ⟨[], [], [], isBlank_nil, isBlank_nil, isBlank_nil⟩

/-- The layout of a container at this depth, with a line for each item. -/
def Layout.pretty (depth : ℕ) : Layout where
  before := Value.newLine (depth + 1)
  behindColon := [' ']
  closing := Value.newLine depth
  isBlank_before := isBlank_encode_newLine (depth + 1)
  isBlank_behindColon := List.forall_mem_singleton.mpr (by decide)
  isBlank_closing := isBlank_encode_newLine depth

theorem Layout.compact_elements :
    Layout.compact.Writes Value.compact Value.compactElements :=
  ⟨fun _ => rfl, fun _ _ _ => rfl⟩

theorem Layout.compact_members :
    Layout.compact.Writes (memberText Layout.compact Value.compact) Value.compactMembers := by
  refine ⟨fun _ => rfl, fun _ _ _ => ?_⟩
  simp [Value.compactMembers, memberText, Layout.compact]

theorem Layout.pretty_elements (depth : ℕ) :
    (Layout.pretty depth).Writes (Value.prettyAt (depth + 1)) (Value.prettyElements (depth + 1)) :=
  ⟨fun _ => rfl, fun _ _ _ => rfl⟩

theorem Layout.pretty_members (depth : ℕ) :
    (Layout.pretty depth).Writes
      (memberText (Layout.pretty depth) (Value.prettyAt (depth + 1)))
      (Value.prettyMembers (depth + 1)) := by
  refine ⟨fun _ => rfl, fun _ _ _ => ?_⟩
  simp [Value.prettyMembers, memberText, Layout.pretty]

/-- The style without blanks. -/
def Style.compact : Style where
  text := fun _ => Value.compact
  layout := fun _ => Layout.compact
  text_scalar := fun _ _ _ => rfl
  encode_array := by
    intro depth elements rest
    cases elements with
    | nil => rfl
    | cons element elements =>
        have harray := Layout.compact_elements.encode_array element elements rest
        simpa [Layout.compact, Value.compact] using harray
  encode_object := by
    intro depth members rest
    cases members with
    | nil => rfl
    | cons member members =>
        have hobject := Layout.compact_members.encode_object member members rest
        simpa [Layout.compact, Value.compact] using hobject

/-- The style with a line for each item. -/
def Style.pretty : Style where
  text := Value.prettyAt
  layout := Layout.pretty
  text_scalar := by
    intro depth value hscalar
    cases value with
    | bool value => cases value <;> rfl
    | array elements => exact hscalar.elim
    | object members => exact hscalar.elim
    | _ => rfl
  encode_array := by
    intro depth elements rest
    cases elements with
    | nil => rfl
    | cons element elements =>
        exact (Layout.pretty_elements depth).encode_array element elements rest
  encode_object := by
    intro depth members rest
    cases members with
    | nil => rfl
    | cons member members =>
        exact (Layout.pretty_members depth).encode_object member members rest

/-! ### Records -/

variable {σ : Type} {members : List (String × Value)}

/-- A record reads an object in any style, if none of its required fields is missing. -/
theorem Record.read_text {record : Record σ} {after : σ} (style : Style) (depth : ℕ)
    (hreads : record.Reads (members.map (memberBytes (style.text (depth + 1)))) record.blank after)
    (hnodup : (members.map Prod.fst).Nodup)
    (hrequired : ∀ field ∈ record.fields, field.required = true →
      field.name ∈ members.map Prod.fst) (rest : Input) :
    record.read (encode (style.text depth (.object members)) ++ rest) = .ok (after, rest) := by
  have hnames : (members.map (memberBytes (style.text (depth + 1)))).map Prod.fst =
      members.map Prod.fst := List.map_map
  rw [style.encode_object depth members rest]
  refine read_object (style.layout depth) hreads ?_ ?_ rest
  · rw [hnames]
    exact hnodup
  · rw [hnames]
    exact hrequired

end ServiceWatch.Json
