import ServiceWatch.Proofs.Json.Object
import ServiceWatch.Proofs.Json.Typed

/-!
# A record that is read is passed over as well

A record is a container with values in it, some of which its fields read and the others of which are
passed over.  If what a field reads is a value that would be passed over (`Record.Passes`), then the
members or elements that a record reads complete their container, and so the record is passed over
too (`Record.skipValue_of_read`).  Since a container ends at its closing bracket, whatever follows,
no proper beginning of a document that is a record is one too (`Record.readDocument_of_prefix`).
-/

namespace ServiceWatch.Json

variable {σ : Type} {s rest front back : Input} {first : Bool}

/-! ### In front of members and elements -/

/-- In front of a member stands what stands in front of an item, and its name; or the object ends. -/
theorem readName?_eq_ok {found : Option String} (hname : readName? first s = .ok (found, rest)) :
    (found = none ∧ ∃ gap left, IsBlank gap ∧ s = gap ++ 0x7D :: left ∧ rest = 0x7D :: left) ∨
      ∃ name front inside, found = some name ∧ IsFront first front ∧ IsInside inside ∧
        s = front ++ 0x22 :: (inside ++ 0x22 :: rest) := by
  have hstring : ∀ {t : Input} {found : Option String},
      (readString t >>= fun named => .ok (some named.1, named.2)) = .ok (found, rest) →
        ∃ name inside, found = some name ∧ IsInside inside ∧ t = inside ++ 0x22 :: rest := by
    intro t found hread
    obtain ⟨⟨name, left⟩, hstring, hresult⟩ := bind_eq_ok_iff.mp hread
    obtain ⟨rfl, rfl⟩ := Prod.mk.inj (Except.ok.inj hresult)
    obtain ⟨inside, hinside, rfl⟩ := readString_eq_ok hstring
    exact ⟨name, inside, rfl, hinside, rfl⟩
  unfold readName? at hname
  split at hname
  next => exact absurd hname failAt_ne_ok
  next byte t hskip =>
    obtain ⟨gap, hgap, rfl⟩ := exists_of_skipGap hskip
    split_ifs at hname with hclose hfirst hquote hcomma
    · obtain ⟨rfl, rfl⟩ := Prod.mk.inj (Except.ok.inj hname)
      exact Or.inl ⟨rfl, gap, t, hgap, by rw [hclose], by rw [hclose]⟩
    · obtain ⟨name, inside, rfl, hinside, rfl⟩ := hstring hname
      subst hfirst
      exact Or.inr ⟨name, gap, inside, rfl, .first hgap, hinside, by rw [hquote]⟩
    · exact absurd hname failAt_ne_ok
    · rw [Bool.not_eq_true] at hfirst
      subst hfirst
      split at hname
      next => exact absurd hname failAt_ne_ok
      next t' hnext =>
        obtain ⟨behind, hbehind, rfl⟩ := exists_of_skipGap hnext
        obtain ⟨name, inside, rfl, hinside, rfl⟩ := hstring hname
        exact Or.inr ⟨name, gap ++ 0x2C :: behind, inside, rfl, .next hgap hbehind, hinside,
          by simp [hcomma]⟩
      next => exact absurd hname failAt_ne_ok
      next => exact absurd hname failAt_ne_ok
    · exact absurd hname failAt_ne_ok

/-- In front of an element stands what stands in front of an item; or the list ends. -/
theorem readElement?_eq_ok {found : Bool} (helement : readElement? first s = .ok (found, rest)) :
    (found = false ∧ ∃ gap left, IsBlank gap ∧ s = gap ++ 0x5D :: left ∧ rest = 0x5D :: left) ∨
      found = true ∧ ∃ front, IsFront first front ∧ s = front ++ rest := by
  unfold readElement? at helement
  split at helement
  next => exact absurd helement failAt_ne_ok
  next byte t hskip =>
    obtain ⟨gap, hgap, rfl⟩ := exists_of_skipGap hskip
    split_ifs at helement with hclose hfirst hcomma
    · obtain ⟨rfl, rfl⟩ := Prod.mk.inj (Except.ok.inj helement)
      exact Or.inl ⟨rfl, gap, t, hgap, by rw [hclose], by rw [hclose]⟩
    · obtain ⟨rfl, rfl⟩ := Prod.mk.inj (Except.ok.inj helement)
      subst hfirst
      exact Or.inr ⟨rfl, gap, .first hgap, rfl⟩
    · rw [Bool.not_eq_true] at hfirst
      subst hfirst
      split at helement
      next => exact absurd helement failAt_ne_ok
      next => exact absurd helement failAt_ne_ok
      next =>
        obtain ⟨rfl, rfl⟩ := Prod.mk.inj (Except.ok.inj helement)
        obtain ⟨behind, hbehind, heq⟩ := exists_of_skipGap (s := t) rfl
        refine Or.inr ⟨rfl, gap ++ 0x2C :: behind, .next hgap hbehind, ?_⟩
        rw [List.append_assoc, List.cons_append, ← heq, hcomma]
    · exact absurd helement failAt_ne_ok

theorem closeList_eq_ok (hclose : closeList s = .ok rest) :
    ∃ gap, IsBlank gap ∧ s = gap ++ 0x5D :: rest := by
  unfold closeList at hclose
  split at hclose
  next => exact absurd hclose failAt_ne_ok
  next hskip =>
    obtain rfl := Except.ok.inj hclose
    exact exists_of_skipGap hskip
  next =>
    split at hclose
    next => exact absurd hclose failAt_ne_ok
    next => exact absurd hclose failBehind_ne_ok
  next => exact absurd hclose failAt_ne_ok

namespace Record

variable {record : Record σ} {seen : List String} {before : σ}

/-- What a field of the record reads is a value that would be passed over. -/
def Passes (record : Record σ) : Prop :=
  ∀ field ∈ record.fields, ∀ {before after : σ} {s rest : Input},
    field.read before s = .ok (after, rest) → skipValue s = .ok rest

/-- One turn of reading members that are read to the end: the object ends here, or the field of the
next name reads its value, or the name is unknown and its value is passed over. -/
inductive Turn (record : Record σ) (fuel : ℕ) (first : Bool) (seen : List String) (before : σ)
    (s : Input) : (List String × σ) × Input → Prop where
  | closes {rest : Input} (hname : readName? first s = .ok (none, rest)) :
      Turn record fuel first seen before s ((seen, before), rest)
  | reads {name : String} {behind value rest : Input} {field : Field σ} {after : σ}
      {result : (List String × σ) × Input} (hname : readName? first s = .ok (some name, behind))
      (hcolon : readColon behind = .ok value)
      (hfind : record.fields.find? (fun field => field.name == name) = some field)
      (hseen : name ∉ seen) (hread : field.read before value = .ok (after, rest))
      (hothers : record.readMembers fuel false (name :: seen) after rest = .ok result) :
      Turn record fuel first seen before s result
  | skips {name : String} {behind value rest : Input} {result : (List String × σ) × Input}
      (hname : readName? first s = .ok (some name, behind)) (hcolon : readColon behind = .ok value)
      (hfind : record.fields.find? (fun field => field.name == name) = none)
      (hskip : skipValue value = .ok rest)
      (hothers : record.readMembers fuel false seen before rest = .ok result) :
      Turn record fuel first seen before s result

theorem turn_of_readMembers {fuel : ℕ} {result : (List String × σ) × Input}
    (hmembers : record.readMembers (fuel + 1) first seen before s = .ok result) :
    record.Turn fuel first seen before s result := by
  rw [readMembers] at hmembers
  split at hmembers
  next => exact absurd hmembers (by simp)
  next hname =>
    obtain rfl := Except.ok.inj hmembers
    exact .closes hname
  next hname =>
    split at hmembers
    next field hfind =>
      split_ifs at hmembers with hseen
      · exact absurd hmembers failAt_ne_ok
      split at hmembers
      next => exact absurd hmembers (by simp)
      next hcolon =>
        split at hmembers
        next => exact absurd hmembers (by simp)
        next hread => exact .reads hname hcolon hfind (by simpa using hseen) hread hmembers
    next hfind =>
      split at hmembers
      next => exact absurd hmembers (by simp)
      next hcolon =>
        split at hmembers
        next => exact absurd hmembers (by simp)
        next hskip => exact .skips hname hcolon hfind hskip hmembers

/-- A member in front of what completes an object completes it as well. -/
theorem completes_member {name : String} {behind value items left : Input}
    (hname : readName? first s = .ok (some name, behind)) (hcolon : readColon behind = .ok value)
    (hvalue : skipValue value = .ok (items ++ left))
    (hitems : Bracket.curly.Completes false items) :
    ∃ all, Bracket.curly.Completes first all ∧ s = all ++ left := by
  rcases readName?_eq_ok hname with ⟨hnone, -⟩ | ⟨_, front, inside, -, hfront, hinside, rfl⟩
  · exact absurd hnone (by simp)
  obtain ⟨before, hbefore, rfl⟩ := readColon_eq_ok hcolon
  obtain ⟨gap, text, hgap, htext, rfl⟩ := skipValue_eq_ok hvalue
  refine ⟨_, hitems.item hfront (.member isBlank_nil hinside hbefore hgap) htext, ?_⟩
  simp only [List.append_assoc, List.cons_append, List.nil_append]

/-- **The members that are read complete the object**, up to its closing brace. -/
theorem readMembers_eq_ok (hpasses : record.Passes) {fuel : ℕ}
    {result : (List String × σ) × Input}
    (hmembers : record.readMembers fuel first seen before s = .ok result) :
    ∃ items left, Bracket.curly.Completes first items ∧ s = items ++ left ∧
      result.2 = 0x7D :: left := by
  induction fuel generalizing first seen before s with
  | zero => exact absurd hmembers failAt_ne_ok
  | succ fuel ih =>
      cases turn_of_readMembers hmembers with
      | closes hname =>
          rcases readName?_eq_ok hname with ⟨-, gap, left, hgap, rfl, hend⟩ | ⟨_, _, _, hsome, -⟩
          · exact ⟨gap ++ [0x7D], left, Bracket.curly.completes_closer first hgap, by simp, hend⟩
          · exact absurd hsome (by simp)
      | reads hname hcolon hfind hseen hread hothers =>
          -- what the field reads would be passed over
          have hvalue := hpasses _ (List.mem_of_find?_eq_some hfind) hread
          obtain ⟨items, left, hitems, rfl, hend⟩ := ih hothers
          obtain ⟨all, hall, heq⟩ := completes_member hname hcolon hvalue hitems
          exact ⟨all, left, hall, heq, hend⟩
      | skips hname hcolon hfind hvalue hothers =>
          obtain ⟨items, left, hitems, rfl, hend⟩ := ih hothers
          obtain ⟨all, hall, heq⟩ := completes_member hname hcolon hvalue hitems
          exact ⟨all, left, hall, heq, hend⟩

/-- **The elements that are read complete the list** that is closed behind them. -/
theorem readElements_eq_ok (hpasses : record.Passes) {fields : List (Field σ)}
    (hfields : ∀ field ∈ fields, field ∈ record.fields) {done : ℕ} {after : σ} {behind : Input}
    (helements : record.readElements done fields before s = .ok (after, behind))
    (hclose : closeList behind = .ok rest) :
    ∃ items, Bracket.square.Completes (done == 0) items ∧ s = items ++ rest := by
  induction fields generalizing done before s with
  | nil =>
      obtain ⟨-, rfl⟩ := Prod.mk.inj (Except.ok.inj helements)
      obtain ⟨gap, hgap, rfl⟩ := closeList_eq_ok hclose
      exact ⟨gap ++ [0x5D], Bracket.square.completes_closer _ hgap, by simp⟩
  | cons field fields ih =>
      rw [readElements] at helements
      split at helements
      next => exact absurd helements (by simp)
      next element helement =>
        rcases readElement?_eq_ok helement with ⟨hfalse, -⟩ | ⟨-, front, hfront, rfl⟩
        · exact absurd hfalse (by simp)
        split at helements
        next => exact absurd helements (by simp)
        next between next hread =>
          have hvalue := hpasses field (hfields field List.mem_cons_self) hread
          obtain ⟨items, hitems, rfl⟩ := ih
            (fun other hother => hfields other (List.mem_cons_of_mem field hother)) helements
          obtain ⟨gap, text, hgap, htext, rfl⟩ := skipValue_eq_ok hvalue
          refine ⟨_, Bracket.Completes.item hitems hfront (.element hgap) htext, ?_⟩
          simp only [List.append_assoc]
      next left helement =>
        rcases readElement?_eq_ok helement with ⟨-, gap, left, hgap, rfl, rfl⟩ | ⟨htrue, -⟩
        · split at helements
          next => exact absurd helements failAt_ne_ok
          next =>
            obtain ⟨-, rfl⟩ := Prod.mk.inj (Except.ok.inj helements)
            rw [closeList_bracket] at hclose
            obtain rfl := Except.ok.inj hclose
            exact ⟨gap ++ [0x5D], Bracket.square.completes_closer _ hgap, by simp⟩
        · exact absurd htrue (by simp)

theorem readObject_eq_ok (hpasses : record.Passes) {after : σ}
    (hobject : record.readObject s = .ok (after, rest)) :
    ∃ items, Bracket.curly.Completes true items ∧ s = items ++ rest := by
  obtain ⟨⟨⟨seen, value⟩, behind⟩, hmembers, hrest⟩ := bind_eq_ok_iff.mp hobject
  obtain ⟨items, left, hitems, rfl, hend⟩ := readMembers_eq_ok hpasses hmembers
  simp only at hrest hend
  subst hend
  split at hrest
  next => exact absurd hrest failAt_ne_ok
  next =>
    simp only [closeObject_brace, bind, Except.bind, Except.ok.injEq, Prod.mk.injEq] at hrest
    obtain ⟨-, rfl⟩ := hrest
    exact ⟨items, hitems, rfl⟩

theorem readList_eq_ok (hpasses : record.Passes) {after : σ}
    (hlist : record.readList s = .ok (after, rest)) :
    ∃ items, Bracket.square.Completes true items ∧ s = items ++ rest := by
  obtain ⟨⟨value, behind⟩, helements, hrest⟩ := bind_eq_ok_iff.mp hlist
  obtain ⟨left, hclose, hresult⟩ := bind_eq_ok_iff.mp hrest
  obtain ⟨-, rfl⟩ := Prod.mk.inj (Except.ok.inj hresult)
  exact readElements_eq_ok hpasses (fun _ hfield => hfield) helements hclose

/-- A record that is read is a container behind blanks. -/
theorem read_eq_ok (hpasses : record.Passes) {after : σ}
    (hread : record.read s = .ok (after, rest)) :
    ∃ gap bracket items, IsBlank gap ∧ Bracket.Completes bracket true items ∧
      s = gap ++ bracket.opener :: (items ++ rest) := by
  unfold read at hread
  split at hread
  next => exact absurd hread failAt_ne_ok
  next t hskip =>
    obtain ⟨gap, hgap, rfl⟩ := exists_of_skipGap hskip
    obtain ⟨items, hitems, rfl⟩ := readList_eq_ok hpasses hread
    exact ⟨gap, .square, items, hgap, hitems, rfl⟩
  next t hskip =>
    obtain ⟨gap, hgap, rfl⟩ := exists_of_skipGap hskip
    obtain ⟨items, hitems, rfl⟩ := readObject_eq_ok hpasses hread
    exact ⟨gap, .curly, items, hgap, hitems, rfl⟩
  next => exact absurd hread (readWrongKind_ne_ok _ _)

/-- **A record that is read is passed over**, whatever else follows it. -/
theorem skipValue_of_read (hpasses : record.Passes) {after : σ}
    (hread : record.read s = .ok (after, rest)) (more : Input) :
    skipValue (s ++ more) = .ok (rest ++ more) := by
  obtain ⟨gap, bracket, items, hgap, hitems, rfl⟩ := read_eq_ok hpasses hread
  have hskip := hitems.skipValue hgap (rest ++ more)
  simpa only [List.append_assoc, List.cons_append] using hskip

/-- **A document that is cut off is refused.**  What it lacks would have to stand behind the closing
bracket of the record, where the whole document has nothing. -/
theorem readDocument_of_prefix (hpasses : record.Passes) {document front : Input} {after : σ}
    (hread : record.read document = .ok (after, [])) (hbegins : front <+: document)
    (hne : front ≠ document) : ∃ failure, record.readDocument front = .error failure := by
  obtain ⟨more, rfl⟩ := hbegins
  cases hfront : record.readDocument front with
  | error failure => exact ⟨failure, rfl⟩
  | ok value =>
      obtain ⟨⟨found, gap⟩, hfound, -⟩ := bind_eq_ok_iff.mp hfront
      have hwhole := skipValue_of_read hpasses hread []
      have hpart := skipValue_of_read hpasses hfound more
      rw [List.append_nil, hpart] at hwhole
      have hnothing : gap ++ more = [] := by simpa using hwhole
      exact absurd (by rw [(List.append_eq_nil_iff.mp hnothing).2, List.append_nil]) hne

/-! ### Names that occur twice -/

variable {members : List (String × Input)} {items text gap : Input}

/-- The value of a member was read by its field. -/
def WasRead (record : Record σ) (member : String × Input) : Prop :=
  ∀ field, record.fields.find? (fun field => field.name == member.1) = some field →
    ∃ before gap rest result, IsBlank gap ∧ field.read before (gap ++ (member.2 ++ rest)) = .ok result

/-- If the members are read, no known name occurs twice among them and those seen before, and the
value of each was read. -/
theorem readMembers_lists_eq_ok (hpasses : record.Passes) (hlists : Lists first members items)
    (hforms : ∀ member ∈ members, Forms .value member.2) {fuel : ℕ}
    {result : (List String × σ) × Input} (hseen : seen.Nodup)
    (hmembers : record.readMembers fuel first seen before (items ++ rest) = .ok result) :
    ((record.known members).reverse ++ seen).Nodup ∧
      ∀ member ∈ members, record.WasRead member := by
  induction hlists generalizing fuel seen before with
  | closing hgap => exact ⟨hseen, fun _ hmember => absurd hmember List.not_mem_nil⟩
  | @member first name members front inside before' behind' value items hfront hname hbefore hbehind
      hothers ih =>
      cases fuel with
      | zero => exact absurd hmembers failAt_ne_ok
      | succ fuel =>
          have hrest := fun other hother => hforms other (List.mem_cons_of_mem _ hother)
          have hskip := (hforms _ List.mem_cons_self).skipValue hbehind (hothers.stops rest)
          simp only [List.append_assoc, List.cons_append] at hmembers
          have hfront := readName?_front hfront hname
            (before' ++ 0x3A :: (behind' ++ (value ++ (items ++ rest))))
          have hbefore := readColon_append hbefore (behind' ++ (value ++ (items ++ rest)))
          cases turn_of_readMembers hmembers with
          | closes hend => exact absurd (hfront.symm.trans hend) (by simp)
          | reads hfound hcolon hfind hfresh hread hmembers =>
              obtain ⟨hsome, rfl⟩ := Prod.mk.inj (Except.ok.inj (hfront.symm.trans hfound))
              obtain rfl := Option.some_inj.mp hsome
              obtain rfl := Except.ok.inj (hbefore.symm.trans hcolon)
              -- the field leaves what passing over its value leaves
              have hleft := hpasses _ (List.mem_of_find?_eq_some hfind) hread
              obtain rfl := Except.ok.inj (hskip.symm.trans hleft)
              obtain ⟨hnodup, hothers⟩ := ih hrest (List.nodup_cons.mpr ⟨hfresh, hseen⟩) hmembers
              have hread : record.WasRead (name, value) := by
                intro other hother
                obtain rfl := Option.some_inj.mp (hfind.symm.trans hother)
                exact ⟨before, behind', _, _, hbehind, hread⟩
              rw [known_cons_of_knows (knows_of_find? hfind), List.reverse_cons, List.append_assoc]
              exact ⟨hnodup, List.forall_mem_cons.mpr ⟨hread, hothers⟩⟩
          | skips hfound hcolon hfind hpassed hmembers =>
              obtain ⟨hsome, rfl⟩ := Prod.mk.inj (Except.ok.inj (hfront.symm.trans hfound))
              obtain rfl := Option.some_inj.mp hsome
              obtain rfl := Except.ok.inj (hbefore.symm.trans hcolon)
              obtain rfl := Except.ok.inj (hskip.symm.trans hpassed)
              obtain ⟨hnodup, hothers⟩ := ih hrest hseen hmembers
              have hread : record.WasRead (name, value) := by
                intro other hother
                exact absurd (hfind.symm.trans hother) (by simp)
              rw [known_cons_of_not_knows (not_knows_of_find? hfind)]
              exact ⟨hnodup, List.forall_mem_cons.mpr ⟨hread, hothers⟩⟩

/-- **If an object is read, no known name occurs twice in it**, and the values of those that occur
were read. -/
theorem nodup_of_read (hpasses : record.Passes) (hobject : IsObject members text)
    (hgap : IsBlank gap) {result : σ × Input}
    (hread : record.read (gap ++ (text ++ rest)) = .ok result) :
    (record.known members).Nodup ∧ ∀ member ∈ members, record.WasRead member := by
  obtain ⟨items, rfl, hlists⟩ := hobject.lists
  rw [read_append hgap] at hread
  unfold read at hread
  rw [List.cons_append, skipGap_of_not_isGap (by decide)] at hread
  obtain ⟨⟨seen, behind⟩, hmembers, -⟩ := bind_eq_ok_iff.mp hread
  obtain ⟨hnodup, hall⟩ :=
    readMembers_lists_eq_ok hpasses hlists hobject.forms List.nodup_nil hmembers
  rw [List.append_nil, List.nodup_reverse] at hnodup
  exact ⟨hnodup, hall⟩

end Record

end ServiceWatch.Json
