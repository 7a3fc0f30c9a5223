import ServiceWatch.Json.Skip
import ServiceWatch.Proofs.Json.Number

/-!
# How containers are laid out

The items of a container, be they the members of an object or the elements of a list, are written
one behind the other, in one of the layouts that a document may have: without blanks, or with a line
for each item.  What is left of a container is laid out with what follows it as an argument, by the
recursion that a reader follows (`Layout.items`), and a reader takes one item at a time off it.
-/

namespace ServiceWatch.Json

open Text.Utf8 (encode)

variable {name : String} {text s : Input}

/-- The blanks in front of each item of a container, behind the colon of a member, and in front of
the closing bracket. -/
structure Layout where
  before : List Char
  behindColon : List Char
  closing : List Char
  isBlank_before : IsBlank (encode before)
  isBlank_behindColon : IsBlank (encode behindColon)
  isBlank_closing : IsBlank (encode closing)

/-- The input begins with a byte that neither is a blank nor closes a list, as every value does. -/
def BeginsValue (s : Input) : Prop :=
  ∃ byte tail, s = byte :: tail ∧ isGap byte = false ∧ byte ≠ 0x5D

theorem BeginsValue.append (htext : BeginsValue text) (rest : Input) :
    BeginsValue (text ++ rest) := by
  obtain ⟨byte, tail, rfl, hgap, hclose⟩ := htext
  exact ⟨byte, tail ++ rest, rfl, hgap, hclose⟩

theorem stops_cons {byte : UInt8}
    (hbyte : isDigit byte = false ∧ byte ≠ 0x2E ∧ byte ≠ 0x65 ∧ byte ≠ 0x45) (s : Input) :
    Stops (byte :: s) := by
  intro other hother
  obtain rfl : byte = other := by simpa using hother
  exact hbyte

/-- A blank ends a literal. -/
theorem stops_append {gap : Input} (hgap : IsBlank gap) (hs : Stops s) : Stops (gap ++ s) := by
  cases gap with
  | nil => exact hs
  | cons blank blanks =>
      refine stops_cons ?_ _
      have hblank := hgap blank List.mem_cons_self
      simp only [isGap, Bool.or_eq_true, decide_eq_true_eq] at hblank
      rcases hblank with ((rfl | rfl) | rfl) | rfl <;> decide

theorem IsBlank.stops {gap : Input} (hgap : IsBlank gap) : Stops gap := by
  rw [← List.append_nil gap]
  exact stops_append hgap fun _ hbyte => absurd hbyte (by simp)

theorem readEnd_of_isBlank {gap : Input} (hgap : IsBlank gap) : readEnd gap = .ok () := by
  have hend : skipGap gap = [] := by
    rw [← List.append_nil gap, skipGap_append hgap]
    rfl
  rw [readEnd, hend]

namespace Layout

/-- What stands between the items of a container, and so not in front of the first one. -/
def comma (first : Bool) : Input := if first then [] else [0x2C]

/-- What stands in front of the closing bracket: nothing if the container is empty. -/
def ending (layout : Layout) (first : Bool) : Input := if first then [] else encode layout.closing

/-- What is left of a container, from its next item on, and then the rest of the document. -/
def items (layout : Layout) (bracket : Bracket) : (first : Bool) → List Input → Input → Input
  | first, [], rest => layout.ending first ++ bracket.closer :: rest
  | first, text :: others, rest =>
    comma first ++ (encode layout.before ++ (text ++ layout.items bracket false others rest))

/-- A member, with its name and the text of its value. -/
def member (layout : Layout) (member : String × Input) : Input :=
  0x22 :: (spelling member.1 ++ 0x22 :: 0x3A :: (encode layout.behindColon ++ member.2))

/-- What is left of an object. -/
def members (layout : Layout) (first : Bool) (members : List (String × Input)) : Input → Input :=
  layout.items .curly first (members.map layout.member)

variable (layout : Layout) (bracket : Bracket) (first : Bool)

theorem isBlank_ending : IsBlank (layout.ending first) := by
  cases first with
  | true => exact isBlank_nil
  | false => exact layout.isBlank_closing

theorem stops_items (texts : List Input) (rest : Input) :
    Stops (layout.items bracket false texts rest) := by
  cases texts with
  | nil =>
      have hcloser : Stops (bracket.closer :: rest) :=
        stops_cons (by cases bracket <;> decide) rest
      exact stops_append (layout.isBlank_ending false) hcloser
  | cons text others => exact stops_cons (by decide) _

theorem stops_members (members : List (String × Input)) (rest : Input) :
    Stops (layout.members false members rest) :=
  layout.stops_items .curly _ rest

/-- The commas alone are nearly as many as the items, and the closing bracket makes up for the comma
that the first one lacks. -/
theorem length_lt_length_items (texts : List Input) (rest : Input) :
    texts.length < (layout.items bracket first texts rest).length + first.toNat := by
  induction texts generalizing first with
  | nil =>
      simp only [items, List.length_nil, List.length_cons, List.length_append]
      omega
  | cons text others ih =>
      have hothers := ih false
      have hcomma : (comma first).length + first.toNat = 1 := by cases first <;> rfl
      simp only [Bool.toNat_false] at hothers
      simp only [items, List.length_cons, List.length_append]
      omega

theorem length_lt_length_members (members : List (String × Input)) (rest : Input) :
    members.length < (layout.members first members rest).length + first.toNat := by
  rw [← List.length_map layout.member]
  exact layout.length_lt_length_items .curly first _ rest

theorem length_text_lt_length_members (name : String) (text : Input)
    (others : List (String × Input)) (rest : Input) :
    text.length + (layout.members false others rest).length <
      (layout.members first ((name, text) :: others) rest).length := by
  simp only [members, items, member, List.map_cons, List.length_append, List.length_cons]
  omega

/-! ### Reading what is laid out -/

theorem skipGap_ending (rest : Input) :
    skipGap (layout.ending first ++ bracket.closer :: rest) = bracket.closer :: rest := by
  rw [skipGap_append (layout.isBlank_ending first),
    skipGap_of_not_isGap (by cases bracket <;> decide)]

theorem readElement?_element (htext : BeginsValue text) (others : List Input) (rest : Input) :
    readElement? first (layout.items .square first (text :: others) rest) =
      .ok (true, text ++ layout.items .square false others rest) := by
  obtain ⟨byte, tail, rfl, hgap, hclose⟩ := htext
  have helement : ∀ s, skipGap (encode layout.before ++ (byte :: s)) = byte :: s := fun s => by
    rw [skipGap_append layout.isBlank_before, skipGap_of_not_isGap hgap]
  unfold readElement?
  cases first with
  | true =>
      simp only [items, comma, if_true, List.nil_append, List.cons_append, helement,
        if_neg hclose]
  | false =>
      simp only [items, comma, Bool.false_eq_true, if_false, List.singleton_append]
      rw [skipGap_of_not_isGap (by decide)]
      simp [helement, hclose]

theorem readElement?_closing (rest : Input) :
    readElement? first (layout.items .square first [] rest) = .ok (false, 0x5D :: rest) := by
  unfold readElement?
  rw [items, layout.skipGap_ending .square]
  rfl

end Layout

theorem readColon_colon (s : Input) : readColon (0x3A :: s) = .ok s := by
  unfold readColon
  rw [skipGap_of_not_isGap (by decide)]
  rfl

theorem readColon_append {gap : Input} (hgap : IsBlank gap) (s : Input) :
    readColon (gap ++ 0x3A :: s) = .ok s := by
  rw [← readColon_colon s]
  unfold readColon
  rw [skipGap_append hgap]

theorem closeObject_brace (s : Input) : closeObject (0x7D :: s) = .ok s := by
  unfold closeObject
  rw [skipGap_of_not_isGap (by decide)]
  rfl

theorem closeList_bracket (s : Input) : closeList (0x5D :: s) = .ok s := by
  unfold closeList
  rw [skipGap_of_not_isGap (by decide)]
  rfl

end ServiceWatch.Json
