import ServiceWatch.Proofs.Json.Passage

/-!
# Members as anyone may write them

`Lists` tells which members are left of an object, each a name and the text of its value.  It leaves
open what does not matter: the blanks around the members and inside them, and how the names are
spelled.  The members in a layout are a special case (`Layout.lists_members`).
-/

namespace ServiceWatch.Json

open Text.Utf8 (encode)

variable {name : String} {members : List (String × Input)} {first : Bool}
  {s rest front inside items value : Input}

/-- What is left of an object are these members and the closing brace. -/
inductive Lists : Bool → List (String × Input) → Input → Prop where
  | closing {first : Bool} {gap : Input} (hgap : IsBlank gap) : Lists first [] (gap ++ [0x7D])
  | member {first : Bool} {name : String} {members : List (String × Input)}
      {front inside before behind value items : Input} (hfront : IsFront first front)
      (hname : Spells inside (encode name.toList)) (hbefore : IsBlank before)
      (hbehind : IsBlank behind) (hothers : Lists false members items) :
      Lists first ((name, value) :: members)
        (front ++ 0x22 :: (inside ++ 0x22 :: (before ++ 0x3A :: (behind ++ (value ++ items)))))

theorem IsFront.stops (hfront : IsFront false front) (s : Input) : Stops (front ++ s) := by
  cases hfront with
  | next hbefore hbehind =>
      rw [List.append_assoc, List.cons_append]
      exact stops_append hbefore (stops_cons (by decide) _)

/-- What is left of an object ends the literal in front of it. -/
theorem Lists.stops (hlists : Lists false members items) (rest : Input) : Stops (items ++ rest) := by
  cases hlists with
  | closing hgap =>
      rw [List.append_assoc, List.singleton_append]
      exact stops_append hgap (stops_cons (by decide) rest)
  | member hfront hname hbefore hbehind hothers =>
      rw [List.append_assoc]
      exact hfront.stops _

theorem Lists.length_lt (hlists : Lists first members items) : members.length < items.length := by
  induction hlists with
  | closing hgap => simp
  | member hfront hname hbefore hbehind hothers ih =>
      simp only [List.length_cons, List.length_append]
      omega

/-! ### Reading what is listed -/

/-- A name in front of which a member may begin is read in any spelling. -/
theorem readName?_front (hfront : IsFront first front) (hname : Spells inside (encode name.toList))
    (s : Input) :
    readName? first (front ++ 0x22 :: (inside ++ 0x22 :: s)) = .ok (some name, s) := by
  have hskip : ∀ {gap : Input} {byte : UInt8} (s : Input), IsBlank gap → isGap byte = false →
      skipGap (gap ++ byte :: s) = byte :: s := fun s hgap hbyte => by
    rw [skipGap_append hgap, skipGap_of_not_isGap hbyte]
  unfold readName?
  cases hfront with
  | first hgap =>
      rw [hskip _ hgap (by decide)]
      simp [readString_spells hname, bind, Except.bind]
  | next hbefore hbehind =>
      rw [List.append_assoc, List.cons_append, hskip _ hbefore (by decide)]
      simp [hskip _ hbehind, show isGap 0x22 = false by decide, readString_spells hname, bind,
        Except.bind]

theorem readName?_end {gap : Input} (hgap : IsBlank gap) (rest : Input) :
    readName? first (gap ++ 0x7D :: rest) = .ok (none, 0x7D :: rest) := by
  unfold readName?
  rw [skipGap_append hgap, skipGap_of_not_isGap (by decide)]
  rfl

/-! ### Objects -/

/-- What is listed completes an object, if the values are any. -/
theorem Lists.completes (hlists : Lists first members items)
    (hforms : ∀ member ∈ members, Forms .value member.2) :
    Bracket.curly.Completes first items := by
  induction hlists with
  | closing hgap => exact Bracket.curly.completes_closer _ hgap
  | member hfront hname hbefore hbehind hothers ih =>
      have hrest := ih fun other hother => hforms other (List.mem_cons_of_mem _ hother)
      have hall := hrest.item hfront (.member isBlank_nil hname.isInside hbefore hbehind)
        (hforms _ List.mem_cons_self)
      simpa only [List.append_assoc, List.cons_append, List.nil_append] using hall

/-- The text is an object with these members, whose values are well formed. -/
structure IsObject (members : List (String × Input)) (text : Input) : Prop where
  lists : ∃ items, text = 0x7B :: items ∧ Lists true members items
  forms : ∀ member ∈ members, Forms .value member.2

theorem IsObject.forms_text {text : Input} (hobject : IsObject members text) :
    Forms .value text := by
  obtain ⟨items, rfl, hlists⟩ := hobject.lists
  exact (hlists.completes hobject.forms).forms

/-- The document is an object with these members, and blanks. -/
def IsDocument (members : List (String × Input)) (document : Input) : Prop :=
  ∃ front text back, IsBlank front ∧ IsObject members text ∧ IsBlank back ∧
    document = front ++ (text ++ back)

/-! ### Members in a layout -/

namespace Layout

variable (layout : Layout) (first : Bool)

theorem isFront : IsFront first (comma first ++ encode layout.before) := by
  cases first with
  | true => exact .first layout.isBlank_before
  | false => exact .next isBlank_nil layout.isBlank_before

theorem readName?_member (text : Input) (others : List (String × Input)) (rest : Input) :
    readName? first (layout.members first ((name, text) :: others) rest) =
      .ok (some name, 0x3A :: (encode layout.behindColon ++
        (text ++ layout.members false others rest))) := by
  have hname := readName?_front (layout.isFront first) (spells_spelling name)
    (0x3A :: (encode layout.behindColon ++ (text ++ layout.members false others rest)))
  simpa only [members, items, member, List.map_cons, List.append_assoc, List.cons_append] using hname

theorem readName?_closing (rest : Input) :
    readName? first (layout.members first [] rest) = .ok (none, 0x7D :: rest) :=
  readName?_end (layout.isBlank_ending first) rest

theorem lists_members (members : List (String × Input)) :
    ∃ items, Lists first members items ∧
      ∀ rest, layout.members first members rest = items ++ rest := by
  induction members generalizing first with
  | nil =>
      refine ⟨_, .closing (layout.isBlank_ending first), fun rest => ?_⟩
      rw [List.append_assoc]
      rfl
  | cons member others ih =>
      obtain ⟨items, hothers, hitems⟩ := ih false
      refine ⟨_, .member (layout.isFront first) (spells_spelling member.1) isBlank_nil
        layout.isBlank_behindColon hothers, fun rest => ?_⟩
      have hrest := hitems rest
      simp only [Layout.members] at hrest
      simp [Layout.members, Layout.items, Layout.member, hrest]

end Layout

end ServiceWatch.Json
