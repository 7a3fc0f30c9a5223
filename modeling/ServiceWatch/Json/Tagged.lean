import ServiceWatch.Json.Tree

/-!
# Tagged values

A tagged value is an object with a member `kind` that names its variant; the other members are the
fields of that variant.  It may also be written as a list that begins with the tag and goes on with
the fields in order.  The tag may stand anywhere among the members, so the other members are read as
trees first, and the variant takes its fields out of them afterwards.

`Variants` describes the variants of one type.  `Variants.read` reads a tagged value of a document
and `Variants.ofValue` takes one out of a tree, where a variant may also be given by its number.
-/

namespace ServiceWatch.Json

/-- The name of the member that holds the tag. -/
def tagName : String := "kind"

/-- A field of a variant that is read into a `σ`. -/
structure Slot (σ : Type) where
  name : String
  read : σ → Value → Except Fault σ

/-- A variant of a tagged type: its tag, and how its fields make up a value, given as members by
name or as elements in order. -/
structure Variant (α : Type) where
  tag : String
  ofMembers : List (String × Value) → Except Fault α
  ofElements : List Value → Except Fault α

/-- A tagged type: what it is called in a fault, and its variants. -/
structure Variants (α : Type) where
  expected : String
  variants : List (Variant α)

namespace Variant

/-- Takes the fields out of members, in the order of the members. -/
def takeMembers {σ : Type} (slots : List (Slot σ)) :
    (seen : List String) → σ → List (String × Value) → Except Fault (List String × σ)
  | seen, fields, [] => .ok (seen, fields)
  | seen, fields, (name, value) :: members =>
    match slots.find? fun slot => slot.name == name with
    | none => takeMembers slots seen fields members
    | some slot =>
      if seen.contains name then .error (.duplicateField name)
      else
        match slot.read fields value with
        | .error fault => .error fault
        | .ok fields => takeMembers slots (name :: seen) fields members

/-- Takes the fields out of elements, in their order.  `done` fields were taken before. -/
def takeElements {σ : Type} (expected : String) (count : Nat) :
    (done : Nat) → List (Slot σ) → σ → List Value → Except Fault σ
  | _, [], fields, [] => .ok fields
  | done, [], _, elements =>
    .error (.wrongLength (done + elements.length)
      (toString done ++ (if done = 1 then " element" else " elements") ++ " in sequence"))
  | done, _ :: _, _, [] =>
    .error (.wrongLength done
      (expected ++ " with " ++ toString count ++ (if count = 1 then " element" else " elements")))
  | done, slot :: slots, fields, value :: elements =>
    match slot.read fields value with
    | .error fault => .error fault
    | .ok fields => takeElements expected count (done + 1) slots fields elements

/-- The variant with these slots, all of which have to be filled.  `expected` is what it is called
in a fault. -/
def ofSlots {α σ : Type} (tag expected : String) (slots : List (Slot σ)) (blank : σ)
    (build : σ → α) : Variant α where
  tag := tag
  ofMembers members := do
    let (seen, fields) ← takeMembers slots [] blank members
    match slots.find? fun slot => !seen.contains slot.name with
    | some slot => .error (.missingField slot.name)
    | none => .ok (build fields)
  ofElements elements := do
    let fields ← takeElements expected slots.length 0 slots blank elements
    .ok (build fields)

end Variant

namespace Variants

variable {α : Type}

/-- The tags of the variants. -/
def tags (type : Variants α) : List String :=
  type.variants.map (·.tag)

/-- The variant with this tag. -/
def withTag (type : Variants α) (tag : String) : Except Fault (Variant α) :=
  match type.variants.find? fun variant => variant.tag == tag with
  | some variant => .ok variant
  | none => .error (.unknownVariant tag type.tags)

/-- What a tag is called in a fault. -/
def tagExpected : String := "variant identifier"

/-- Reads a tag. -/
def readTag (type : Variants α) (s : Input) : Except Failure (Variant α × Input) := do
  let (tag, s) ← readText tagExpected s
  match type.withTag tag with
  | .ok variant => .ok (variant, s)
  | .error fault => failAt fault s

/-- Reads the members of a tagged object up to its closing brace: the variant, if its tag was among
them, and the other members. -/
def readTagged (type : Variants α) (depth : Nat) :
    (fuel : Nat) → (first : Bool) → Option (Variant α) → (before : List (String × Value)) → Input →
      Except Failure ((Option (Variant α) × List (String × Value)) × Input)
  | 0, _, _, _, s => failAt (.endInside .object) s
  | fuel + 1, first, variant, before, s =>
    match readName? first s with
    | .error failure => .error failure
    | .ok (none, s) => .ok ((variant, before.reverse), s)
    | .ok (some name, s) =>
      if name == tagName then
        if variant.isSome then failAt (.duplicateField tagName) (leaveObject s)
        else
          match readColon s with
          | .error failure => .error failure
          | .ok s =>
            match type.readTag s with
            | .error failure => .error failure
            | .ok (variant, s) => readTagged type depth fuel false (some variant) before s
      else
        match readColon s with
        | .error failure => .error failure
        | .ok s =>
          match readTree depth s with
          | .error failure => .error failure
          | .ok (value, s) => readTagged type depth fuel false variant ((name, value) :: before) s

/-- Reads a tagged value.  The value itself may be out of its variant's bounds without a failure to
read it: that is told as a fault, for the caller to report at its own place. -/
def read (type : Variants α) (depth : Nat) (s : Input) :
    Except Failure (Except Fault α × Input) :=
  match skipGap s with
  | [] => failAt (.endInside .value) []
  | 0x5B :: s => do
    let depth ← deeper depth s
    let (found, s) ← readElement? true s
    if found then
      let (variant, s) ← type.readTag s
      let (elements, s) ← readTrees depth false s
      let s ← closeList s
      .ok (variant.ofElements elements, s)
    else failAt (.missingField tagName) (leaveList s)
  | 0x7B :: s => do
    let depth ← deeper depth s
    let ((variant, members), s) ← type.readTagged depth (s.length + 1) true none [] s
    match variant with
    | none => failAt (.missingField tagName) (leaveObject s)
    | some variant => do
      let s ← closeObject s
      .ok (variant.ofMembers members, s)
  | s => do
    let (value, s) ← readScalar s
    failAt (wrongKind value.found type.expected) s

/-- The variant that a tree names by its tag or its number. -/
def variantOf (type : Variants α) : Value → Except Fault (Variant α)
  | .string tag => type.withTag tag
  | .number (.unsigned n) =>
    match type.variants[n.toNat]? with
    | some variant => .ok variant
    | none =>
      .error (.mismatch (.range (.integer n.toNat)
        ("variant index 0 <= i < " ++ toString type.variants.length)))
  | value => .error (wrongKind value.found tagExpected)

/-- The variant that the members name, and the members other than the tag. -/
def splitTag (type : Variants α) :
    Option (Variant α) → (before : List (String × Value)) → List (String × Value) →
      Except Fault (Option (Variant α) × List (String × Value))
  | variant, before, [] => .ok (variant, before.reverse)
  | variant, before, (name, value) :: members =>
    if name == tagName then
      if variant.isSome then .error (.duplicateField tagName)
      else
        match type.variantOf value with
        | .error fault => .error fault
        | .ok variant => splitTag type (some variant) before members
    else splitTag type variant ((name, value) :: before) members

/-- The tagged value that a tree holds. -/
def ofValue (type : Variants α) : Value → Except Fault α
  | .object members => do
    let (variant, members) ← type.splitTag none [] members
    match variant with
    | none => .error (.missingField tagName)
    | some variant => variant.ofMembers members
  | .array [] => .error (.missingField tagName)
  | .array (tag :: elements) => do
    let variant ← type.variantOf tag
    variant.ofElements elements
  | value => .error (wrongKind value.found type.expected)

/-- Reads the elements of a list of tagged values up to its closing bracket. -/
def readElements (type : Variants α) (depth : Nat) :
    (fuel : Nat) → (first : Bool) → (before : List α) → Input →
      Except Failure (List α × Input)
  | 0, _, _, s => failAt (.endInside .list) s
  | fuel + 1, first, before, s =>
    match readElement? first s with
    | .error failure => .error failure
    | .ok (false, s) => .ok (before.reverse, s)
    | .ok (true, s) =>
      match type.read depth s with
      | .error failure => .error failure
      | .ok (.error fault, s) => failAt fault (leaveList s)
      | .ok (.ok value, s) => readElements type depth fuel false (value :: before) s

/-- Reads a list of tagged values. -/
def readList (type : Variants α) (depth : Nat) (s : Input) : Except Failure (List α × Input) :=
  match skipGap s with
  | [] => failAt (.endInside .value) []
  | 0x5B :: s => do
    let depth ← deeper depth s
    let (values, s) ← type.readElements depth (s.length + 1) true [] s
    let s ← closeList s
    .ok (values, s)
  | s => readWrongKind "a sequence" s

end Variants

/-- Takes a string out of a tree. -/
def Value.toText : Value → Except Fault String
  | .string value => .ok value
  | value => .error (wrongKind value.found "a string")

/-- Takes a natural number of sixty-four bits out of a tree. -/
def Value.toUInt64 : Value → Except Fault UInt64
  | .number numeral => numeral.toWord "u64"
  | value => .error (wrongKind value.found "u64")

/-- Takes a natural number of sixteen bits out of a tree. -/
def Value.toUInt16 : Value → Except Fault UInt16
  | .number numeral => do
    let word ← numeral.toWord "u16"
    if word.toNat < UInt16.size then .ok (UInt16.ofNat word.toNat)
    else .error (.mismatch (.range (.integer word.toNat) "u16"))
  | value => .error (wrongKind value.found "u16")

end ServiceWatch.Json
