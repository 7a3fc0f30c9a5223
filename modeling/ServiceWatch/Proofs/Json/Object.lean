import Mathlib.Data.List.Nodup
import ServiceWatch.Json.Record
import ServiceWatch.Proofs.Json.Members

/-!
# Reading objects back

A record reads an object member by member, however these are written.  A member of a known name
changes what has been read so far, and one of an unknown name is passed over; so what is left to show
of a record is what each of its fields makes of the text of its own value, and that the other values
can be passed over (`Record.Reads`).  `readMembers_lists` is the induction over the members, in which
the known names that were read pile up.
-/

namespace ServiceWatch.Json

variable {σ : Type} {name : String} {text rest s : Input} {members : List (String × Input)}

namespace Record

variable {record : Record σ} {field : Field σ} {before between after : σ} {seen : List String}
  {first : Bool}

/-- Whether a field has this name. -/
def knows (record : Record σ) (name : String) : Bool :=
  (record.fields.find? fun field => field.name == name).isSome

/-- The members' names that fields have. -/
def known (record : Record σ) (members : List (String × Input)) : List String :=
  (members.map Prod.fst).filter record.knows

/-- The members of known names are the same ones, in whatever order. -/
def SameKnown (record : Record σ) (members others : List (String × Input)) : Prop :=
  (members.filter fun member => record.knows member.1).Perm
    (others.filter fun member => record.knows member.1)

theorem SameKnown.mem_iff {others : List (String × Input)} (hsame : record.SameKnown members others)
    (hknows : record.knows name = true) (text : Input) :
    (name, text) ∈ members ↔ (name, text) ∈ others := by
  have hmem : (name, text) ∈ members.filter _ ↔ (name, text) ∈ others.filter _ :=
    List.Perm.mem_iff hsame
  simpa [List.mem_filter, hknows] using hmem

theorem SameKnown.nodup_iff {others : List (String × Input)}
    (hsame : record.SameKnown members others) :
    (record.known members).Nodup ↔ (record.known others).Nodup := by
  have hnames := (hsame.map Prod.fst).nodup_iff
  have hknown : ∀ members : List (String × Input),
      record.known members = (members.filter fun member => record.knows member.1).map Prod.fst :=
    fun members => List.filter_map
  rwa [← hknown, ← hknown] at hnames

/-- The record reads the members one after the other, each with the field of its name, if there is
one, and whatever blanks stand in front of its value, and so gets from `before` to `after`. -/
inductive Reads (record : Record σ) : List (String × Input) → σ → σ → Prop where
  | nil (value : σ) : Reads record [] value value
  | cons {name : String} {text : Input} {members : List (String × Input)} {field : Field σ}
      {before between after : σ}
      (hfind : record.fields.find? (fun field => field.name == name) = some field)
      (hread : ∀ gap rest, IsBlank gap → Stops rest →
        field.read before (gap ++ (text ++ rest)) = .ok (between, rest))
      (hreads : Reads record members between after) :
      Reads record ((name, text) :: members) before after
  | skip {name : String} {text : Input} {members : List (String × Input)} {before after : σ}
      (hfind : record.fields.find? (fun field => field.name == name) = none)
      (hskip : ∀ gap rest, IsBlank gap → Stops rest →
        skipValue (gap ++ (text ++ rest)) = .ok rest)
      (hreads : Reads record members before after) :
      Reads record ((name, text) :: members) before after

theorem Reads.append {front back : List (String × Input)}
    (hfront : record.Reads front before between) (hback : record.Reads back between after) :
    record.Reads (front ++ back) before after := by
  induction hfront with
  | nil value => exact hback
  | cons hfind hread hreads ih => exact .cons hfind hread (ih hback)
  | skip hfind hskip hreads ih => exact .skip hfind hskip (ih hback)

/-- Each field sets the part of the record that goes by its name to what a text spells, and no other
part. -/
structure Sets {γ : Type} (record : Record σ) (part : String → σ → γ)
    (spells : String → Input → γ → Prop) : Prop where
  ext : ∀ {one other : σ}, (∀ name, part name one = part name other) → one = other
  reads : ∀ {name : String} {text : Input} {value : γ} (before : σ), record.knows name = true →
    Forms .value text → spells name text value → ∃ after,
      record.Reads [(name, text)] before after ∧ part name after = value ∧
        ∀ other, other ≠ name → part other after = part other before

/-- Members in any order lead to what they say of the known names; the other parts stay. -/
theorem Sets.reads_members {γ : Type} {part : String → σ → γ} {spells : String → Input → γ → Prop}
    (hsets : record.Sets part spells) (hforms : ∀ member ∈ members, Forms .value member.2)
    (hpresent : ∀ name text, record.knows name = true → (name, text) ∈ members →
      spells name text (part name after))
    (habsent : ∀ name, (∀ text, record.knows name = true → (name, text) ∉ members) →
      part name after = part name before) : record.Reads members before after := by
  induction members generalizing before with
  | nil =>
      obtain rfl : after = before := hsets.ext fun name =>
        habsent name fun _ _ => List.not_mem_nil
      exact .nil after
  | cons member members ih =>
      obtain ⟨name, text⟩ := member
      have hothers := fun other hother => hforms other (List.mem_cons_of_mem _ hother)
      have hlater := fun other value hknows hmember =>
        hpresent other value hknows (List.mem_cons_of_mem _ hmember)
      by_cases hknows : record.knows name = true
      · obtain ⟨between, hread, hpart, hrest⟩ :=
          hsets.reads before hknows (hforms _ List.mem_cons_self)
            (hpresent name text hknows List.mem_cons_self)
        refine hread.append (ih hothers hlater fun other hother => ?_)
        by_cases hname : other = name
        · rw [hname, hpart]
        · rw [hrest other hname]
          refine habsent other fun value hknown hmember => ?_
          rcases List.mem_cons.mp hmember with heq | hmember
          · exact hname (Prod.mk.inj heq).1
          · exact hother value hknown hmember
      · have hfind : record.fields.find? (fun field => field.name == name) = none := by
          simpa [knows] using hknows
        refine .skip hfind (fun gap rest hgap hrest =>
          (hforms _ List.mem_cons_self).skipValue hgap hrest) (ih hothers hlater fun other hother => ?_)
        refine habsent other fun value hknown hmember => ?_
        rcases List.mem_cons.mp hmember with heq | hmember
        · exact hknows ((Prod.mk.inj heq).1 ▸ hknown)
        · exact hother value hknown hmember

theorem readMembers_step {behind value : Input} (fuel : ℕ)
    (hname : readName? first s = .ok (some name, behind)) (hcolon : readColon behind = .ok value)
    (hfind : record.fields.find? (fun field => field.name == name) = some field)
    (hseen : name ∉ seen) (hread : field.read before value = .ok (between, rest)) :
    record.readMembers (fuel + 1) first seen before s =
      record.readMembers fuel false (name :: seen) between rest := by
  have hcontains : seen.contains name = false := by simpa using hseen
  rw [readMembers, hname]
  simp only [hfind, hcontains, hcolon, hread]
  rfl

theorem readMembers_skip {behind value : Input} (fuel : ℕ)
    (hname : readName? first s = .ok (some name, behind)) (hcolon : readColon behind = .ok value)
    (hfind : record.fields.find? (fun field => field.name == name) = none)
    (hskip : skipValue value = .ok rest) :
    record.readMembers (fuel + 1) first seen before s =
      record.readMembers fuel false seen before rest := by
  rw [readMembers, hname]
  simp only [hfind, hcolon, hskip]

theorem known_cons_of_knows (hknows : record.knows name = true) (text : Input)
    (members : List (String × Input)) :
    record.known ((name, text) :: members) = name :: record.known members := by
  simp [known, hknows]

theorem known_cons_of_not_knows (hknows : record.knows name = false) (text : Input)
    (members : List (String × Input)) :
    record.known ((name, text) :: members) = record.known members := by
  simp [known, hknows]

theorem knows_of_find? (hfind : record.fields.find? (fun field => field.name == name) = some field) :
    record.knows name = true := by
  rw [knows, hfind, Option.isSome_some]

theorem not_knows_of_find? (hfind : record.fields.find? (fun field => field.name == name) = none) :
    record.knows name = false := by
  rw [knows, hfind, Option.isSome_none]

/-- The members are read up to the closing brace. -/
theorem readMembers_lists {items : Input} (hlists : Lists first members items)
    (hreads : record.Reads members before after)
    (hnodup : ((record.known members).reverse ++ seen).Nodup) {fuel : ℕ}
    (hfuel : members.length < fuel) (rest : Input) :
    record.readMembers fuel first seen before (items ++ rest) =
      .ok (((record.known members).reverse ++ seen, after), 0x7D :: rest) := by
  induction hreads generalizing seen fuel first items with
  | nil value =>
      cases hlists with
      | closing hgap =>
          obtain ⟨fuel, rfl⟩ := Nat.exists_eq_succ_of_ne_zero (Nat.pos_iff_ne_zero.mp hfuel)
          rw [List.append_assoc, List.singleton_append, readMembers, readName?_end hgap]
          rfl
  | @cons name text members field before between after hfind hread hreads ih =>
      obtain ⟨fuel, rfl⟩ := Nat.exists_eq_succ_of_ne_zero (by omega : fuel ≠ 0)
      cases hlists with
      | member hfront hname hbefore hbehind hothers =>
          -- the name that is read joins the names that were, in front of them
          simp only [known_cons_of_knows (knows_of_find? hfind), List.reverse_cons,
            List.append_assoc, List.cons_append, List.nil_append] at hnodup ⊢
          have hseen : name ∉ seen :=
            (List.nodup_cons.mp (List.nodup_append.mp hnodup).2.1).1
          rw [readMembers_step fuel (readName?_front hfront hname _) (readColon_append hbefore _)
            hfind hseen (hread _ _ hbehind (hothers.stops rest))]
          exact ih hothers hnodup (by simpa using hfuel)
  | @skip name text members before after hfind hskip hreads ih =>
      obtain ⟨fuel, rfl⟩ := Nat.exists_eq_succ_of_ne_zero (by omega : fuel ≠ 0)
      cases hlists with
      | member hfront hname hbefore hbehind hothers =>
          rw [known_cons_of_not_knows (not_knows_of_find? hfind)] at hnodup ⊢
          simp only [List.append_assoc, List.cons_append]
          rw [readMembers_skip fuel (readName?_front hfront hname _) (readColon_append hbefore _)
            hfind (hskip _ _ hbehind (hothers.stops rest))]
          exact ih hothers hnodup (by simpa using hfuel)

/-- Nothing is missing when each required field is the name of a member. -/
theorem missing?_known (hrequired : ∀ field ∈ record.fields, field.required = true →
    field.name ∈ members.map Prod.fst) :
    record.missing? (record.known members).reverse = none := by
  rw [missing?, Option.map_eq_none_iff, List.find?_eq_none]
  intro field hfield
  by_cases hneeded : field.required = true
  · have hknows : record.knows field.name = true := by
      rw [knows, List.find?_isSome]
      exact ⟨field, hfield, beq_self_eq_true _⟩
    have hknown : field.name ∈ record.known members :=
      List.mem_filter.mpr ⟨hrequired field hfield hneeded, hknows⟩
    simp [hknown]
  · simp [hneeded]

/-- **An object of members that the record reads is read whole**, however it is written. -/
theorem read_lists {items : Input} (hlists : Lists true members items)
    (hreads : record.Reads members record.blank after) (hnodup : (record.known members).Nodup)
    (hrequired : ∀ field ∈ record.fields, field.required = true →
      field.name ∈ members.map Prod.fst) (rest : Input) :
    record.read (0x7B :: (items ++ rest)) = .ok (after, rest) := by
  have hfuel : members.length < (items ++ rest).length + 1 := by
    have hlength := hlists.length_lt
    rw [List.length_append]
    omega
  have hnames : ((record.known members).reverse ++ []).Nodup := by
    rwa [List.append_nil, List.nodup_reverse]
  have hmembers := readMembers_lists hlists hreads hnames hfuel rest
  rw [List.append_nil] at hmembers
  unfold read
  rw [skipGap_of_not_isGap (by decide)]
  simp only [readObject, hmembers, bind, Except.bind, missing?_known hrequired, closeObject_brace]

/-- It is read whole in any layout. -/
theorem read_object (layout : Layout) (hreads : record.Reads members record.blank after)
    (hnodup : (members.map Prod.fst).Nodup)
    (hrequired : ∀ field ∈ record.fields, field.required = true →
      field.name ∈ members.map Prod.fst) (rest : Input) :
    record.read (0x7B :: layout.members true members rest) = .ok (after, rest) := by
  obtain ⟨items, hlists, hitems⟩ := layout.lists_members true members
  rw [hitems]
  exact read_lists hlists hreads (hnodup.filter _) hrequired rest

theorem read_append {gap : Input} (hgap : IsBlank gap) (s : Input) :
    record.read (gap ++ s) = record.read s := by
  unfold read
  rw [skipGap_append hgap]

/-- Nothing but blanks may follow the record of a document. -/
theorem readDocument_of_read {document gap : Input} (hgap : IsBlank gap)
    (hread : record.read document = .ok (after, gap)) :
    record.readDocument document = .ok after := by
  simp only [readDocument, hread, readEnd_of_isBlank hgap, bind, Except.bind]

end Record

end ServiceWatch.Json
