import ServiceWatch.Json.Typed

/-!
# Records in a JSON document

A record is written as an object whose members are its fields by name, in any order and mixed with
members of unknown names, or as a list of its fields in order.  In an object a field may be absent
unless it is required, and none may occur twice; a list may end early if the fields it lacks are
not required.

A fault that concerns the record as a whole, such as a missing field, is reported where the reader
stands after it tried to leave the record.
-/

namespace ServiceWatch.Json

/-- A field of a record that is read into a `σ`. -/
structure Field (σ : Type) where
  name : String
  required : Bool
  read : σ → Input → Except Failure (σ × Input)

/-- A record that is read into a `σ`, and what it is called in a fault. -/
structure Record (σ : Type) where
  expected : String
  fields : List (Field σ)
  blank : σ

namespace Record

variable {σ : Type}

/-- How many elements the list form has, in a fault. -/
def lengthText (expected : String) (n : Nat) : String :=
  expected ++ " with " ++ toString n ++ (if n = 1 then " element" else " elements")

/-- Reads the members of an object up to its closing brace.  `seen` are the fields read so far. -/
def readMembers (record : Record σ) :
    (fuel : Nat) → (first : Bool) → (seen : List String) → σ → Input →
      Except Failure ((List String × σ) × Input)
  | 0, _, _, _, s => failAt (.endInside .object) s
  | fuel + 1, first, seen, value, s =>
    match readName? first s with
    | .error failure => .error failure
    | .ok (none, s) => .ok ((seen, value), s)
    | .ok (some name, s) =>
      match record.fields.find? fun field => field.name == name with
      | some field =>
        if seen.contains name then failAt (.duplicateField name) (leaveObject s)
        else
          match readColon s with
          | .error failure => .error failure
          | .ok s =>
            match field.read value s with
            | .error failure => .error failure
            | .ok (value, s) => readMembers record fuel false (name :: seen) value s
      | none =>
        match readColon s with
        | .error failure => .error failure
        | .ok s =>
          match skipValue s with
          | .error failure => .error failure
          | .ok s => readMembers record fuel false seen value s

/-- The first required field that was not seen. -/
def missing? (record : Record σ) (seen : List String) : Option String :=
  (record.fields.find? fun field => field.required && !seen.contains field.name).map (·.name)

/-- Reads the object form behind its opening brace. -/
def readObject (record : Record σ) (s : Input) : Except Failure (σ × Input) := do
  let ((seen, value), s) ← record.readMembers (s.length + 1) true [] record.blank s
  match record.missing? seen with
  | some name => failAt (.missingField name) (leaveObject s)
  | none => do
    let s ← closeObject s
    .ok (value, s)

/-- Reads the elements of a list as these fields.  `done` fields were read before. -/
def readElements (record : Record σ) (done : Nat) :
    List (Field σ) → σ → Input → Except Failure (σ × Input)
  | [], value, s => .ok (value, s)
  | field :: fields, value, s =>
    match readElement? (done == 0) s with
    | .error failure => .error failure
    | .ok (true, s) =>
      match field.read value s with
      | .error failure => .error failure
      | .ok (value, s) => readElements record (done + 1) fields value s
    | .ok (false, s) =>
      match (field :: fields).findIdx? (·.required) with
      | some ahead =>
        failAt (.wrongLength (done + ahead) (lengthText record.expected record.fields.length))
          (leaveList s)
      | none => .ok (value, s)

/-- Reads the list form behind its opening bracket. -/
def readList (record : Record σ) (s : Input) : Except Failure (σ × Input) := do
  let (value, s) ← record.readElements 0 record.fields record.blank s
  let s ← closeList s
  .ok (value, s)

/-- Reads a record in either form. -/
def read (record : Record σ) (s : Input) : Except Failure (σ × Input) :=
  match skipGap s with
  | [] => failAt (.endInside .value) []
  | 0x5B :: s => record.readList s
  | 0x7B :: s => record.readObject s
  | s => readWrongKind record.expected s

/-- Reads a document that holds a record and nothing else. -/
def readDocument (record : Record σ) (document : Input) : Except Failure σ := do
  let (value, s) ← record.read document
  readEnd s
  .ok value

end Record

end ServiceWatch.Json
