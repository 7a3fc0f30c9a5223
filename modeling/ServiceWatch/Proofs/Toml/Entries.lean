import Mathlib.Data.List.Nodup
import ServiceWatch.Toml.Document

/-!
# The entries of a TOML document

Whatever the lines of a document are, the entries in place have different names, and every integer
among them fits sixty-four bits with a sign (`AreSound`).  A line leads to a change at the end of a
key path.  On a path with a first key the entries in place only get a table under that key, so they
can lose what is said of them at an empty path alone (`AreSound.changeAt`).  Behind an entry of a
document there is therefore no other item under its name (`AreSound.item?_tail`).
-/

namespace ServiceWatch.Toml

variable {entry : Entry} {entries : List Entry} {name : String} {item : Item}

/-- The item under a name. -/
def item? (name : String) (entries : List Entry) : Option Item :=
  (named? name entries).map fun entry => entry.2.2

/-- If the item is an integer, it fits sixty-four bits with a sign. -/
def Item.Fits (item : Item) : Prop :=
  ∀ n, item = .integer n → fits n = true

/-- The names of entries. -/
def names (entries : List Entry) : List String :=
  entries.map fun entry => entry.1.name

/-- Entries as a document can have them. -/
structure AreSound (entries : List Entry) : Prop where
  nodup : (names entries).Nodup
  fits : ∀ entry ∈ entries, entry.2.2.Fits

/-! ### Names -/

@[simp] theorem named?_eq_none_iff : named? name entries = none ↔ name ∉ names entries := by
  simp only [named?, names, List.find?_eq_none, List.mem_map, beq_iff_eq, not_exists, not_and]

theorem item?_eq_none_iff : item? name entries = none ↔ name ∉ names entries := by
  simp [item?]

theorem item?_cons (entry : Entry) (entries : List Entry) :
    item? name (entry :: entries) =
      if entry.1.name = name then some entry.2.2 else item? name entries := by
  by_cases hname : entry.1.name = name
  · simp [item?, named?, hname]
  · simp [item?, named?, hname, List.find?_cons_of_neg]

theorem AreSound.tail (hsound : AreSound (entry :: entries)) : AreSound entries where
  nodup := (List.nodup_cons.mp hsound.nodup).2
  fits other hmem := hsound.fits other (List.mem_cons_of_mem _ hmem)

theorem AreSound.item?_tail (hsound : AreSound (entry :: entries)) :
    item? entry.1.name entries = none :=
  item?_eq_none_iff.mpr (List.nodup_cons.mp hsound.nodup).1

theorem names_replaceEntry (name : String) (span : Option Span) (item : Item)
    (entries : List Entry) : names (replaceEntry name span item entries) = names entries := by
  induction entries with
  | nil => rfl
  | cons entry rest ih =>
      rw [replaceEntry]
      split
      · rfl
      · exact congrArg (entry.1.name :: ·) ih

theorem eq_of_mem_replaceEntry {span : Option Span}
    (hmem : entry ∈ replaceEntry name span item entries) : entry ∈ entries ∨ entry.2.2 = item := by
  induction entries with
  | nil => exact .inl hmem
  | cons first rest ih =>
      rw [replaceEntry] at hmem
      split at hmem
      · rcases List.mem_cons.mp hmem with rfl | hmem
        · exact .inr rfl
        · exact .inl (List.mem_cons_of_mem _ hmem)
      · rcases List.mem_cons.mp hmem with rfl | hmem
        · exact .inl List.mem_cons_self
        · exact (ih hmem).imp_left (List.mem_cons_of_mem _)

/-! ### Changes of the entries -/

theorem areSound_nil : AreSound [] :=
  ⟨List.nodup_nil, fun _ hmem => absurd hmem List.not_mem_nil⟩

theorem AreSound.concat (hsound : AreSound entries)
    (hnew : named? entry.1.name entries = none) (hfits : entry.2.2.Fits) :
    AreSound (entries ++ [entry]) where
  nodup := by
    have hnames : names (entries ++ [entry]) = (names entries).concat entry.1.name := by
      simp [names]
    rw [hnames]
    exact hsound.nodup.concat (named?_eq_none_iff.mp hnew)
  fits other hmem := by
    rcases List.mem_append.mp hmem with hmem | hmem
    · exact hsound.fits other hmem
    · rwa [List.mem_singleton.mp hmem]

theorem AreSound.replaceEntry (hsound : AreSound entries) (name : String) (span : Option Span)
    (hfits : item.Fits) : AreSound (replaceEntry name span item entries) where
  nodup := by rw [names_replaceEntry]; exact hsound.nodup
  fits entry hmem := by
    rcases eq_of_mem_replaceEntry hmem with hmem | hitem
    · exact hsound.fits entry hmem
    · rwa [hitem]

theorem AreSound.filter (hsound : AreSound entries) (keep : Entry → Bool) :
    AreSound (entries.filter keep) where
  nodup := (List.filter_sublist.map _).nodup hsound.nodup
  fits entry hmem := hsound.fits entry (List.mem_of_mem_filter hmem)

theorem fits_table (origin : Origin) (entries : List Entry) : (Item.table origin entries).Fits :=
  nofun

theorem fits_tables (elements : List (Span × List Entry)) : (Item.tables elements).Fits :=
  nofun

/-! ### What a reader may give -/

section Ensures

variable {α β : Type} {holds : α → Prop} {given : β → Prop}

/-- Whatever the result is, if there is one, this holds of it. -/
def Ensures (holds : α → Prop) (result : Option α) : Prop :=
  ∀ a, result = some a → holds a

theorem ensures_none : Ensures holds none := nofun

theorem ensures_some {a : α} (ha : holds a) : Ensures holds (some a) := by
  rintro _ ⟨⟩
  exact ha

theorem Ensures.bind {first : Option α} {next : α → Option β}
    (hnext : ∀ a, first = some a → Ensures given (next a)) : Ensures given (first >>= next) := by
  cases first with
  | none => exact ensures_none
  | some a => exact hnext a rfl

theorem Ensures.map {first : Option α} {f : α → β} (hf : ∀ a, first = some a → given (f a)) :
    Ensures given (first.map f) := by
  cases first with
  | none => exact ensures_none
  | some a => exact ensures_some (hf a rfl)

end Ensures

/-- A change that leaves sound entries sound. -/
def KeepsSound {α : Type} (change : Body → Option (List Entry × α)) : Prop :=
  ∀ body, AreSound body.2 → Ensures (fun changed => AreSound changed.1) (change body)

theorem keepsSound_addEntry (isDotted : Bool) (hfits : entry.2.2.Fits) :
    KeepsSound (addEntry isDotted entry) := by
  intro body hsound
  unfold addEntry
  split_ifs with _ hnew
  · exact ensures_none
  · exact ensures_none
  · exact ensures_some (hsound.concat (Option.not_isSome_iff_eq_none.mp hnew) hfits)

theorem keepsSound_pushTable (opened : Opened) : KeepsSound (pushTable opened) := by
  intro body hsound
  unfold pushTable
  split
  · exact ensures_some (hsound.replaceEntry _ _ (fits_tables _))
  · exact ensures_none

theorem keepsSound_takePassage (key : Key) : KeepsSound (takePassage key) := by
  intro body hsound
  unfold takePassage
  split
  · exact ensures_some hsound
  · exact ensures_some (hsound.filter _)
  · exact ensures_none

theorem keepsSound_makeRoom (key : Key) : KeepsSound (makeRoom key) := by
  intro body hsound
  unfold makeRoom
  split
  next hnone => exact ensures_some (hsound.concat hnone (fits_tables _))
  next => exact ensures_some hsound
  next => exact ensures_none

/-- Behind the first key of a path nothing but a table comes to stand. -/
theorem KeepsSound.changeAt {α : Type} {change : Body → Option (List Entry × α)}
    (hchange : KeepsSound change) (passing : Origin) (path : List Key) :
    KeepsSound (changeAt passing change path) := by
  intro body hsound
  cases path with
  | nil => exact hchange body hsound
  | cons key path =>
      unfold Toml.changeAt
      split
      next hnone =>
        exact .bind fun _ _ => ensures_some (hsound.concat hnone (fits_table _ _))
      next =>
        split_ifs
        · exact ensures_none
        · exact .bind fun _ _ => ensures_some (hsound.replaceEntry _ _ (fits_table _ _))
      next =>
        split
        · exact ensures_none
        · exact .bind fun _ _ => ensures_some (hsound.replaceEntry _ _ (fits_tables _))
      next => exact ensures_none

theorem AreSound.assign (hsound : AreSound entries) (hfits : item.Fits) (path : List Key)
    (span : Span) (origin : Origin) : Ensures AreSound (assign path span item (origin, entries)) :=
  .bind fun _ _ => .bind fun _ hchanged => ensures_some
    ((keepsSound_addEntry _ hfits).changeAt _ _ _ hsound _ hchanged)

/-! ### The integers that are read -/

/-- What was read is an item that fits, in front of the rest of the input. -/
def ReadsFitting (result : Option (Item × Input)) : Prop :=
  Ensures (fun read => read.1.Fits) result

theorem fits_of_integer? {n : Int} (heq : integer? n = some item) : item.Fits := by
  rintro m rfl
  unfold integer? at heq
  split_ifs at heq with hfits
  obtain rfl := Item.integer.inj (Option.some.inj heq)
  exact hfits

theorem fits_of_float? {negative : Bool} {digits : List Char} {exponent : Int}
    (heq : float? negative digits exponent = some item) : item.Fits := by
  rintro m rfl
  unfold float? at heq
  simp at heq

theorem readsFitting_readBased (base : ℕ) (s : Input) : ReadsFitting (readBased base s) :=
  .bind fun _ _ => .bind fun _ hread => ensures_some (fits_of_integer? hread)

theorem readsFitting_readSpecial (negative : Bool) (s : Input) :
    ReadsFitting (readSpecial negative s) := by
  fun_cases readSpecial negative s with
  | case1 | case2 => exact ensures_some nofun
  | case3 => exact ensures_none

theorem readsFitting_readNumberTail (negative : Bool) (whole : List Char) (s : Input) :
    ReadsFitting (readNumberTail negative whole s) := by
  fun_cases readNumberTail negative whole s with
  | case1 =>
      exact .bind fun _ _ => .bind fun _ _ => .bind fun _ hread =>
        ensures_some (fits_of_float? hread)
  | case2 => exact .bind fun _ _ => .bind fun _ hread => ensures_some (fits_of_float? hread)
  | case3 => exact .bind fun _ hread => ensures_some (fits_of_integer? hread)

theorem readsFitting_readNumber (s : Input) : ReadsFitting (readNumber s) := by
  fun_cases readNumber s with
  | case1 | case2 | case3 => exact readsFitting_readBased _ _
  | case4 | case5 => exact readsFitting_readSpecial _ _
  | case6 => exact .bind fun _ _ => readsFitting_readNumberTail _ _ _

theorem readsFitting_readNumberOrMoment (s : Input) : ReadsFitting (readNumberOrMoment s) := by
  refine .bind fun moment _ => ?_
  cases moment with
  | some _ => exact ensures_some nofun
  | none => exact readsFitting_readNumber s

theorem readsFitting_readArrayWith (fuel depth : ℕ) (before : List Item) (s : Input) :
    ReadsFitting (readArrayWith fuel depth before s) := by
  induction fuel generalizing before s with
  | zero => exact ensures_none
  | succ fuel ih =>
      unfold readArrayWith
      split
      · exact ensures_some nofun
      · split
        · exact ensures_none
        · split
          · exact ih _ _
          · exact ensures_some nofun
          · exact ensures_none

theorem readsFitting_readBracesWith (fuel depth : ℕ) (first : Bool) (entries : List Entry)
    (s : Input) : ReadsFitting (readBracesWith fuel depth first entries s) := by
  induction fuel generalizing first entries s with
  | zero => exact ensures_none
  | succ fuel ih =>
      unfold readBracesWith
      split
      · exact ensures_some nofun
      · split
        · dsimp only
          split
          · exact ensures_none
          · split
            · exact ensures_none
            · split
              · exact ih _ _ _
              · exact ensures_some nofun
              · exact ensures_none
        · exact ensures_none

theorem readsFitting_readValue (s : Input) : ReadsFitting (readValue s) := by
  unfold readValue readValueWith
  split
  · exact ensures_none
  · split_ifs
    · exact .map fun _ _ => nofun
    · exact ensures_none
    · exact readsFitting_readArrayWith _ _ _ _
    · exact ensures_none
    · exact readsFitting_readBracesWith _ _ _ _ _
    · exact .map fun _ _ => nofun
    · exact .map fun _ _ => nofun
    · exact readsFitting_readNumberOrMoment _
    · exact readsFitting_readSpecial _ _

/-! ### The lines of a document -/

variable {progress : Progress}

/-- What was read leaves the document with sound entries, in front of the rest of the input. -/
def ReadsSound (result : Option (Progress × Input)) : Prop :=
  Ensures (fun read => AreSound read.1.entries) result

theorem AreSound.close (hsound : AreSound progress.entries) : Ensures AreSound progress.close := by
  unfold Progress.close
  split
  · exact ensures_some hsound
  next opened _ =>
    refine .map fun _ hchanged => KeepsSound.changeAt ?_ _ _ _ hsound _ hchanged
    split
    · exact keepsSound_pushTable opened
    · exact keepsSound_addEntry false (fits_table _ _)

theorem AreSound.openTable (hsound : AreSound progress.entries) (isRepeated : Bool)
    (path : List Key) (span : Span) :
    Ensures (fun after => AreSound after.entries) (progress.openTable isRepeated path span) := by
  refine .bind fun closed hclosed => .bind fun key _ => .bind fun _ hchanged => ensures_some ?_
  refine KeepsSound.changeAt ?_ _ _ _ (hsound.close closed hclosed) _ hchanged
  split
  · exact keepsSound_makeRoom key
  · exact keepsSound_takePassage key

theorem AreSound.assignProgress (hsound : AreSound progress.entries) (hfits : item.Fits)
    (path : List Key) (span : Span) :
    Ensures (fun after => AreSound after.entries) (progress.assign path span item) := by
  unfold Progress.assign
  split
  · exact .map fun _ hchanged => hsound.assign hfits _ _ _ _ hchanged
  · exact .map fun _ _ => hsound

theorem AreSound.readHeader (hsound : AreSound progress.entries) (s : Input) :
    ReadsSound (readHeader progress s) := by
  fun_cases Toml.readHeader progress s with
  | case1 | case3 =>
      exact .bind fun _ hopened => .bind fun _ _ =>
        ensures_some (hsound.openTable _ _ _ _ hopened)
  | _ => exact ensures_none

theorem AreSound.readEntry (hsound : AreSound progress.entries) (s : Input) :
    ReadsSound (readEntry progress s) := by
  fun_cases Toml.readEntry progress s with
  | case1 =>
      exact .bind fun _ hread => .bind fun _ hassigned => .bind fun _ _ =>
        ensures_some (hsound.assignProgress (readsFitting_readValue _ _ hread) _ _ _ hassigned)
  | case2 => exact ensures_none

theorem AreSound.readLine (hsound : AreSound progress.entries) (s : Input) :
    ReadsSound (readLine progress s) := by
  fun_cases Toml.readLine progress s with
  | case1 | case2 | case3 => exact .map fun _ _ => hsound
  | case4 => exact hsound.readHeader _
  | case5 => exact hsound.readEntry _

theorem AreSound.readLines (hsound : AreSound progress.entries) (fuel : ℕ) (s : Input) :
    Ensures (fun after => AreSound after.entries) (readLines fuel progress s) := by
  induction fuel generalizing progress s with
  | zero => exact ensures_none
  | succ fuel ih =>
      unfold Toml.readLines
      split
      · exact ensures_some hsound
      · split
        next hline => exact ih (hsound.readLine _ _ hline) _
        next => exact ensures_none

/-- The entries of a document have different names, and the integers among them fit. -/
theorem areSound_of_entries? {document : Input} (heq : entries? document = some entries) :
    AreSound entries := by
  have hensures : Ensures AreSound (entries? document) :=
    .bind fun progress hprogress =>
      AreSound.close (areSound_nil.readLines _ _ progress hprogress)
  exact hensures entries heq

end ServiceWatch.Toml
