import ServiceWatch.Disk.Basic
import ServiceWatch.Path
import ServiceWatch.Proofs.Text.Split

/-!
# Names and segments of a path

A path is cut in two ways: `Disk.segments` keeps every segment that is not empty, for the segments
are what a file system follows, and `Path.cut` takes the mark off and gives the others backwards,
for names and parents are cut from the end.  Where the last segment is a name, both agree on it
(`name?_of_getLast?`), and a path with another name in place of it ends in that name
(`getLast?_segments_withName`).  The directories that a path is in, which are cut from it too, are
parts of its text that stand in front of a further step (`exists_of_mem_climb`).

Of the segments only those count that do not stand for nothing, the *steps*.  The parent of a path
has all of its steps but the last (`exists_of_name?`).
-/

namespace ServiceWatch.Path

variable {path name last : String}

/-- Whether a segment is not empty. -/
abbrev isFull (segment : List Char) : Bool := segment ≠ []

theorem exists_dropIdle {segments : List (List Char)} {final : List Char}
    (hfinal : segments.find? isFull = some final) (hhere : final ≠ ['.']) :
    ∃ before, dropIdle segments = final :: before := by
  unfold dropIdle
  induction segments with
  | nil => simp at hfinal
  | cons segment rest ih =>
      by_cases hempty : segment = []
      · rw [List.find?_cons_of_neg (by simp [hempty])] at hfinal
        obtain ⟨before, hbefore⟩ := ih hfinal
        exact ⟨before, by simp [hempty, isIdle, hbefore]⟩
      · rw [List.find?_cons_of_pos (by simp [hempty])] at hfinal
        obtain rfl := Option.some_inj.mp hfinal
        exact ⟨rest, by simp [isIdle, hempty, hhere]⟩

/-- Taking the mark off a path takes no name off it. -/
theorem find?_segments_cut {cs final : List Char}
    (hfinal : (backSegments cs).find? isFull = some final) (hhere : final ≠ ['.']) :
    (cut cs).segments.find? isFull = some final := by
  unfold cut
  split
  next rest =>
    have hroot : backSegments ('/' :: rest) = backSegments rest ++ [[]] := by
      simp [backSegments, Text.splitOn, Text.splitWhere]
    rw [hroot, List.find?_append] at hfinal
    simpa using hfinal
  next =>
    simp only [backSegments, Text.splitOn, Text.splitWhere] at hfinal
    simp [hhere.symm] at hfinal
  next rest =>
    have hroot : backSegments ('/' :: rest) = backSegments rest ++ [[]] := by
      simp [backSegments, Text.splitOn, Text.splitWhere]
    have hdot : backSegments ('.' :: '/' :: rest) = backSegments rest ++ [['.']] := by
      simp [backSegments, Text.splitOn, Text.splitWhere]
    rw [hdot, List.find?_append] at hfinal
    rw [hroot, List.find?_append]
    cases hinner : (backSegments rest).find? isFull with
    | none =>
        rw [hinner, Option.none_or] at hfinal
        exact absurd (Option.some.inj hfinal).symm hhere
    | some inner =>
        rw [hinner, Option.some_or] at hfinal
        rw [Option.some_or]
        exact hfinal
  next => exact hfinal

theorem find?_backSegments (path : String) :
    (backSegments path.toList).find? isFull =
      (Disk.segments path).getLast?.map String.toList := by
  unfold Disk.segments backSegments isFull
  rw [List.getLast?_map, Option.map_map, List.getLast?_eq_head?_reverse, ← List.filter_reverse,
    List.head?_filter]
  simp [Function.comp_def]

/-- The last segment of a path is its name, unless it is `.` or `..`. -/
theorem name?_of_getLast? (hlast : (Disk.segments path).getLast? = some last) (hhere : last ≠ ".")
    (hup : last ≠ "..") : name? path = some last := by
  have hback : (backSegments path.toList).find? isFull = some last.toList := by
    rw [find?_backSegments, hlast, Option.map_some]
  have hone : last.toList ≠ ['.'] := fun heq => hhere (String.toList_inj.mp heq)
  have htwo : last.toList ≠ ['.', '.'] := fun heq => hup (String.toList_inj.mp heq)
  obtain ⟨before, hbefore⟩ := exists_dropIdle (find?_segments_cut hback hone) hone
  rw [name?, hbefore]
  simp [htwo]

theorem slash_notMem_of_mem_backSegments {cs segment : List Char}
    (hsegment : segment ∈ backSegments cs) : '/' ∉ segment :=
  Text.not_mem_of_mem_splitOn (List.mem_reverse.mp hsegment)

theorem slash_notMem_of_mem_cut {cs segment : List Char} (hsegment : segment ∈ (cut cs).segments) :
    '/' ∉ segment := by
  unfold cut at hsegment
  split at hsegment
  next => exact slash_notMem_of_mem_backSegments hsegment
  next => exact absurd hsegment List.not_mem_nil
  next => exact slash_notMem_of_mem_backSegments hsegment
  next => exact slash_notMem_of_mem_backSegments hsegment

/-- A name is one segment. -/
theorem slash_notMem_of_name? (hname : name? path = some name) : '/' ∉ name.toList := by
  unfold name? at hname
  split at hname
  next final before hfinal =>
    have hmem : final ∈ (cut path.toList).segments := by
      apply (List.dropWhile_sublist isIdle).subset
      rw [← dropIdle, hfinal]
      exact List.mem_cons_self
    split at hname
    next => exact absurd hname (by simp)
    next =>
      obtain rfl := Option.some.inj hname
      rw [String.toList_ofList]
      exact slash_notMem_of_mem_cut hmem
  next => exact absurd hname (by simp)

theorem segments_append_slash (front more : String) :
    Disk.segments (front ++ "/" ++ more) = Disk.segments front ++ Disk.segments more := by
  have htext : (front ++ "/" ++ more).toList = front.toList ++ '/' :: more.toList := by simp
  unfold Disk.segments
  rw [htext, Text.splitOn_eq, List.splitOn_append_cons_self, ← Text.splitOn_eq, ← Text.splitOn_eq,
    List.filter_append, List.map_append]

theorem segments_eq_singleton (hslash : '/' ∉ name.toList) (hname : name ≠ "") :
    Disk.segments name = [name] := by
  have hfull : name.toList ≠ [] := fun heq => hname (String.toList_inj.mp heq)
  rw [Disk.segments, Text.splitOn_eq, List.splitOn_eq_singleton hslash]
  simp [hfull]

/-- Behind a slash, or at the start, a name is a segment of its own. -/
theorem segments_append (hslash : '/' ∉ name.toList) (hname : name ≠ "") (path : String) :
    Disk.segments (append path name) = Disk.segments path ++ [name] := by
  have hbehind (front : String) :
      Disk.segments (front ++ "/" ++ name) = Disk.segments front ++ [name] := by
    rw [segments_append_slash, segments_eq_singleton hslash hname]
  unfold append
  split
  next hempty =>
    rw [segments_eq_singleton hslash hname, hempty]
    rfl
  next =>
    split
    next hend =>
      obtain ⟨front, hfront⟩ := List.getLast?_eq_some_iff.mp hend
      have hpath : path = String.ofList front ++ "/" ++ "" := by
        rw [← String.toList_inj, hfront]
        simp
      have hnone : Disk.segments "" = [] := rfl
      rw [hpath, segments_append_slash, hnone, List.append_nil, String.append_empty, hbehind]
    next => exact hbehind path

theorem getLast?_segments_append (hslash : '/' ∉ name.toList) (hname : name ≠ "")
    (path : String) : (Disk.segments (append path name)).getLast? = some name := by
  rw [segments_append hslash hname, List.getLast?_concat]

/-- A path with this name in place of its last one ends in it. -/
theorem getLast?_segments_withName (hslash : '/' ∉ name.toList) (hname : name ≠ "")
    (path : String) : (Disk.segments (withName path name)).getLast? = some name := by
  unfold withName
  split
  next => exact getLast?_segments_append hslash hname _
  next => exact getLast?_segments_append hslash hname _

/-! ### The directories of a path -/

/-- One text leads on to another behind a slash. -/
def LeadsTo (front whole : List Char) : Prop :=
  ∃ more, whole = front ++ '/' :: more

theorem LeadsTo.trans_append {front whole : List Char} (hleads : LeadsTo front whole)
    (rest : List Char) : LeadsTo front (whole ++ rest) := by
  obtain ⟨more, rfl⟩ := hleads
  exact ⟨more ++ rest, by simp⟩

/-- A dot is the mark of a text that goes on with a slash, if it goes on. -/
def Cut.IsSound (c : Cut) : Prop :=
  c.mark = ['.'] → c.segments = [] ∨ c.segments.getLast? = some []

theorem text_backSegments (mark cs : List Char) :
    Cut.text ⟨mark, backSegments cs⟩ = mark ++ cs := by
  rw [Cut.text, backSegments, List.reverse_reverse, Text.splitOn_eq, List.intercalate_splitOn]

theorem text_cut (cs : List Char) : (cut cs).text = cs := by
  unfold cut
  split
  next rest => exact text_backSegments ['/'] rest
  next => rfl
  next rest => exact text_backSegments ['.'] ('/' :: rest)
  next => exact text_backSegments [] cs

theorem isSound_cut (cs : List Char) : (cut cs).IsSound := by
  unfold cut
  split
  next rest => exact fun hmark => absurd hmark (by simp)
  next => exact fun _ => Or.inl rfl
  next rest =>
    intro _
    apply Or.inr
    have hroot : backSegments ('/' :: rest) = backSegments rest ++ [[]] := by
      simp [backSegments, Text.splitOn, Text.splitWhere]
    rw [hroot, List.getLast?_concat]
  next => exact fun hmark => absurd hmark (by simp)

theorem intercalate_append {front back : List (List Char)} (hfront : front ≠ [])
    (hback : back ≠ []) :
    ['/'].intercalate (front ++ back) =
      ['/'].intercalate front ++ '/' :: ['/'].intercalate back := by
  induction front with
  | nil => exact absurd rfl hfront
  | cons segment rest ih =>
      cases rest with
      | nil =>
          cases back with
          | nil => exact absurd rfl hback
          | cons first others => simp [List.intercalate_cons_cons]
      | cons next rest => simpa [List.intercalate_cons_cons] using ih (by simp)

theorem text_append {mark : List Char} {later before : List (List Char)} (hlater : later ≠ [])
    (hbefore : before ≠ []) :
    Cut.text ⟨mark, later ++ before⟩ =
      Cut.text ⟨mark, before⟩ ++ '/' :: ['/'].intercalate later.reverse := by
  simp only [Cut.text, List.reverse_append]
  rw [intercalate_append (by simpa using hbefore) (by simpa using hlater), List.append_assoc]

theorem text_cons_cons (mark segment next : List Char) (rest : List (List Char)) :
    Cut.text ⟨mark, segment :: next :: rest⟩ =
      Cut.text ⟨mark, next :: rest⟩ ++ '/' :: segment := by
  have htext : Cut.text ⟨mark, [segment] ++ next :: rest⟩ = _ :=
    text_append (List.cons_ne_nil segment []) (List.cons_ne_nil next rest)
  rw [List.singleton_append] at htext
  simpa using htext

theorem text_ne_nil {mark segment : List Char} {before : List (List Char)}
    (hsegment : segment ≠ []) : Cut.text ⟨mark, segment :: before⟩ ≠ [] := by
  cases before with
  | nil => simp [Cut.text, hsegment]
  | cons next rest => simp [text_cons_cons]

/-- A directory that a text passes through is the text itself, or the text leads on from it. -/
theorem leadsTo_of_mem_directories {c : Cut} {directory : List Char} (hsound : c.IsSound)
    (hdirectory : directory ∈ directories c.mark c.segments) :
    directory ≠ [] ∧ (c.text = directory ∨ LeadsTo directory c.text) := by
  obtain ⟨mark, segments⟩ := c
  induction segments with
  | nil =>
      unfold directories at hdirectory
      split at hdirectory
      next hhere =>
        obtain rfl := List.mem_singleton.mp hdirectory
        exact ⟨by simp [show directory = ['.'] from hhere], Or.inl (by simp [Cut.text])⟩
      next => exact absurd hdirectory List.not_mem_nil
  | cons segment before ih =>
      -- further out it is a directory of the segments in front
      have houter (hmem : directory ∈ directories mark before) : directory ≠ [] ∧
          (Cut.text ⟨mark, segment :: before⟩ = directory ∨
            LeadsTo directory (Cut.text ⟨mark, segment :: before⟩)) := by
        cases before with
        | nil =>
            unfold directories at hmem
            split at hmem
            next hhere =>
              obtain rfl := List.mem_singleton.mp hmem
              have hsegment : segment = [] := by simpa using hsound hhere
              exact ⟨by simp [hhere], Or.inl (by simp [Cut.text, hsegment])⟩
            next => exact absurd hmem List.not_mem_nil
        | cons next rest =>
            obtain ⟨hne, hleads⟩ := ih (by simpa [Cut.IsSound] using hsound) hmem
            refine ⟨hne, Or.inr ?_⟩
            rw [text_cons_cons]
            rcases hleads with heq | hleads
            · exact ⟨segment, by simp [heq]⟩
            · exact hleads.trans_append _
      unfold directories at hdirectory
      split at hdirectory
      next => exact houter hdirectory
      next hname =>
        rcases List.mem_cons.mp hdirectory with rfl | hdirectory
        · have hfull : segment ≠ [] := fun h => hname (by simp [isIdle, h])
          exact ⟨text_ne_nil hfull, Or.inl rfl⟩
        · exact houter hdirectory

theorem mark_cut (cs : List Char) :
    (cut cs).mark = [] ∨ (cut cs).mark = ['/'] ∨ (cut cs).mark = ['.'] := by
  unfold cut
  split <;> simp

theorem leadsTo_of_mem_climb {directory outer : String} (hdirectory : directory ∈ climb outer) :
    directory ≠ "" ∧ (outer = directory ∨ LeadsTo directory.toList outer.toList) := by
  obtain ⟨text, htext, rfl⟩ := List.mem_map.mp hdirectory
  obtain ⟨hne, hleads⟩ := leadsTo_of_mem_directories (isSound_cut outer.toList) htext
  rw [text_cut] at hleads
  refine ⟨fun hempty => hne (by simpa using hempty), ?_⟩
  rw [String.toList_ofList]
  exact hleads.imp_left fun heq => by rw [← heq, String.ofList_toList]

theorem isIdle_eq_false_of_dropIdle {segments before : List (List Char)} {last : List Char}
    (hdrop : dropIdle segments = last :: before) : isIdle last = false := by
  have h := List.head?_dropWhile_not isIdle segments
  rw [← dropIdle, hdrop] at h
  simpa using h

theorem splitOn_intercalate {segments : List (List Char)} (hne : segments ≠ [])
    (hslash : ∀ segment ∈ segments, '/' ∉ segment) :
    Text.splitOn '/' (['/'].intercalate segments) = segments := by
  rw [Text.splitOn_eq, List.splitOn_intercalate '/' hslash hne]

theorem mem_splitOn_intercalate {segments : List (List Char)} {segment : List Char}
    (hslash : ∀ other ∈ segments, '/' ∉ other) (hsegment : segment ∈ segments) :
    segment ∈ Text.splitOn '/' (['/'].intercalate segments) := by
  rw [splitOn_intercalate (List.ne_nil_of_mem hsegment) hslash]
  exact hsegment

/-- The segment at which dropping idle ones stops is not among those that a further round leaves. -/
theorem exists_of_dropIdle {segments before : List (List Char)} {last : List Char}
    (hdrop : dropIdle segments = last :: before) :
    ∃ later, segments = later ++ dropIdle before ∧ last ∈ later := by
  refine ⟨segments.takeWhile isIdle ++ last :: before.takeWhile isIdle, ?_, by simp⟩
  rw [List.append_assoc, List.cons_append, dropIdle, List.takeWhile_append_dropWhile, ← hdrop,
    dropIdle, List.takeWhile_append_dropWhile]

/-- All segments behind a dot stand behind the slash that follows it. -/
theorem exists_of_dot {later : List (List Char)} {last : List Char}
    (hsound : Cut.IsSound ⟨['.'], later⟩) (hslash : ∀ other ∈ later, '/' ∉ other)
    (hmem : last ∈ later) (hlast : isIdle last = false) :
    ∃ more, Cut.text ⟨['.'], later⟩ = '.' :: '/' :: more ∧ last ∈ Text.splitOn '/' more := by
  obtain ⟨inner, rfl⟩ : ∃ inner, later = inner ++ [[]] := by
    rcases hsound rfl with hnone | hend
    · exact absurd hnone (List.ne_nil_of_mem hmem)
    · exact List.getLast?_eq_some_iff.mp hend
  have hinner : last ∈ inner := by
    rcases List.mem_append.mp hmem with hinner | hempty
    · exact hinner
    · rw [List.mem_singleton.mp hempty] at hlast
      exact absurd hlast (by decide)
  refine ⟨['/'].intercalate inner.reverse, ?_, ?_⟩
  · rw [text_append (List.ne_nil_of_mem hinner) (by simp)]
    simp [Cut.text]
  · exact mem_splitOn_intercalate (fun other h => hslash other (by simp_all))
      (by simpa using hinner)

/-- The later segments of a text stand behind a slash, if what is left without them is in a
directory with a name or is one. -/
theorem exists_of_later {mark : List Char} {later kept : List (List Char)} {last : List Char}
    (hmark : mark = [] ∨ mark = ['/'] ∨ mark = ['.']) (hsound : Cut.IsSound ⟨mark, later ++ kept⟩)
    (hslash : ∀ other ∈ later, '/' ∉ other) (hmem : last ∈ later) (hlast : isIdle last = false)
    (hclimb : climb (String.ofList (Cut.text ⟨mark, kept⟩)) ≠ []) :
    ∃ more, Cut.text ⟨mark, later ++ kept⟩ = Cut.text ⟨mark, kept⟩ ++ '/' :: more ∧
      last ∈ Text.splitOn '/' more := by
  cases kept with
  | cons segment rest =>
      refine ⟨_, text_append (List.ne_nil_of_mem hmem) (by simp), ?_⟩
      exact mem_splitOn_intercalate (by simpa using hslash) (by simpa using hmem)
  | nil =>
      -- nothing is left but the mark, which is a directory with a name only if it is a dot
      rcases hmark with rfl | rfl | rfl
      · exact absurd (by decide) hclimb
      · exact absurd (by decide) hclimb
      · rw [List.append_nil] at hsound ⊢
        exact exists_of_dot hsound hslash hmem hlast

/-- The parent of a path, if it is a directory with a name, is followed by a segment that does not
stand for nothing. -/
theorem exists_of_parent? {outer : String} (hparent : parent? path = some outer)
    (hclimb : climb outer ≠ []) :
    ∃ more, path.toList = outer.toList ++ '/' :: more ∧
      ∃ segment ∈ Text.splitOn '/' more, isIdle segment = false := by
  unfold parent? at hparent
  have htext := text_cut path.toList
  have hsound := isSound_cut path.toList
  have hmark := mark_cut path.toList
  have hslash : ∀ other ∈ (cut path.toList).segments, '/' ∉ other :=
    fun other => slash_notMem_of_mem_cut
  generalize cut path.toList = c at *
  obtain ⟨mark, segments⟩ := c
  simp only at hparent hmark hslash
  split at hparent
  next last before hdrop =>
    obtain rfl := Option.some.inj hparent
    have hlast := isIdle_eq_false_of_dropIdle hdrop
    obtain ⟨later, rfl, hmem⟩ := exists_of_dropIdle hdrop
    obtain ⟨more, hmore, hsegment⟩ := exists_of_later hmark hsound
      (fun other hother => hslash other (List.mem_append_left _ hother)) hmem hlast hclimb
    rw [String.toList_ofList, ← htext]
    exact ⟨more, hmore, last, hsegment, hlast⟩
  next =>
    split at hparent
    next =>
      obtain rfl := Option.some.inj hparent
      exact absurd (by decide) hclimb
    next => exact absurd hparent (by simp)

/-- A directory that a path is in stands in front of at least one further step of the path. -/
theorem exists_of_mem_climb {outer directory : String} (hparent : parent? path = some outer)
    (hdirectory : directory ∈ climb outer) :
    directory ≠ "" ∧ ∃ more : String, path = directory ++ "/" ++ more ∧
      ∃ name ∈ Disk.segments more, name ≠ "." := by
  obtain ⟨hne, hleads⟩ := leadsTo_of_mem_climb hdirectory
  obtain ⟨more, htext, segment, hsegment, hstep⟩ :=
    exists_of_parent? hparent (List.ne_nil_of_mem hdirectory)
  obtain ⟨hfull, hhere⟩ : segment ≠ [] ∧ segment ≠ ['.'] := by simpa [isIdle] using hstep
  have hmem : String.ofList segment ∈ Disk.segments (String.ofList more) := by
    unfold Disk.segments
    rw [String.toList_ofList]
    exact List.mem_map_of_mem (List.mem_filter.mpr ⟨hsegment, by simpa using hfull⟩)
  have hname : String.ofList segment ≠ "." := by
    intro heq
    exact hhere (by rw [← String.toList_ofList (l := segment), heq]; rfl)
  have hpath : path = outer ++ "/" ++ String.ofList more := by
    rw [← String.toList_inj, htext]
    simp
  refine ⟨hne, ?_⟩
  rcases hleads with rfl | ⟨between, hbetween⟩
  · exact ⟨String.ofList more, hpath, _, hmem, hname⟩
  · have houter : outer = directory ++ "/" ++ String.ofList between := by
      rw [← String.toList_inj, hbetween]
      simp
    refine ⟨String.ofList between ++ "/" ++ String.ofList more, ?_, _, ?_, hname⟩
    · rw [hpath, houter]
      simp only [String.append_assoc]
    · rw [segments_append_slash]
      exact List.mem_append_right _ hmem

/-! ### The steps of a path -/

/-- The segments of a text that do not stand for nothing. -/
def steps (cs : List Char) : List (List Char) :=
  (Text.splitOn '/' cs).filter fun segment => !isIdle segment

theorem steps_slash (cs : List Char) : steps ('/' :: cs) = steps cs := by
  simp [steps, Text.splitOn, Text.splitWhere, isIdle]

theorem steps_dot_slash (cs : List Char) : steps ('.' :: '/' :: cs) = steps cs := by
  simp [steps, Text.splitOn, Text.splitWhere, isIdle]

/-- The steps of a text are those of the segments that it is cut into. -/
theorem steps_text {mark : List Char} {segments : List (List Char)}
    (hmark : mark = [] ∨ mark = ['/'] ∨ mark = ['.']) (hsound : Cut.IsSound ⟨mark, segments⟩)
    (hslash : ∀ segment ∈ segments, '/' ∉ segment) :
    steps (Cut.text ⟨mark, segments⟩) = (segments.filter fun segment => !isIdle segment).reverse := by
  rw [← List.filter_reverse]
  unfold Cut.text
  have hback : ∀ segment ∈ segments.reverse, '/' ∉ segment := by simpa using hslash
  by_cases hnone : segments = []
  · subst hnone
    rcases hmark with rfl | rfl | rfl <;> decide
  · have hne : segments.reverse ≠ [] := by simpa using hnone
    rcases hmark with rfl | rfl | rfl
    · rw [List.nil_append, steps, splitOn_intercalate hne hback]
    · rw [List.singleton_append, steps_slash, steps, splitOn_intercalate hne hback]
    · -- behind the dot there is nothing, or a slash
      obtain ⟨later, rfl⟩ := List.getLast?_eq_some_iff.mp ((hsound rfl).resolve_left hnone)
      rw [List.reverse_concat] at hback ⊢
      by_cases hlater : later = []
      · subst hlater
        decide
      · have hrest : later.reverse ≠ [] := by simpa using hlater
        have htext : ['/'].intercalate ([] :: later.reverse) =
            '/' :: ['/'].intercalate later.reverse :=
          intercalate_append (List.cons_ne_nil [] []) hrest
        rw [htext, List.singleton_append, steps_dot_slash, steps,
          splitOn_intercalate hrest fun segment hmem => hback segment (by simp_all)]
        simp [isIdle]

/-- A text begins with a slash exactly when that is its mark. -/
theorem head?_eq_slash_iff (cs : List Char) : cs.head? = some '/' ↔ (cut cs).mark = ['/'] := by
  unfold cut
  split
  next => simp
  next => simp
  next => simp
  next hslash _ _ =>
    refine iff_of_false (fun hhead => ?_) (by simp)
    obtain ⟨rest, rfl⟩ := List.head?_eq_some_iff.mp hhead
    exact hslash rest rfl

/-- Dropping idle segments drops no step. -/
theorem filter_dropIdle (segments : List (List Char)) :
    (dropIdle segments).filter (fun segment => !isIdle segment) =
      segments.filter fun segment => !isIdle segment := by
  unfold dropIdle
  induction segments with
  | nil => rfl
  | cons segment rest ih =>
      cases hidle : isIdle segment with
      | true => simpa [hidle] using ih
      | false => simp [hidle]

/-- What is left of a text begins as the text does, unless nothing is left but the mark. -/
theorem head?_text_dropIdle {mark : List Char} {segments before : List (List Char)}
    {last : List Char} (hmark : mark = [] ∨ mark = ['/'] ∨ mark = ['.'])
    (habsolute : (Cut.text ⟨mark, segments⟩).head? = some '/' ↔ mark = ['/'])
    (hdrop : dropIdle segments = last :: before) :
    (Cut.text ⟨mark, dropIdle before⟩).head? = some '/' ↔
      (Cut.text ⟨mark, segments⟩).head? = some '/' := by
  obtain ⟨later, hsegments, hlast⟩ := exists_of_dropIdle hdrop
  cases hkept : dropIdle before with
  | nil =>
      rw [habsolute]
      rcases hmark with rfl | rfl | rfl <;> simp [Cut.text]
  | cons segment rest =>
      have hfull : segment ≠ [] := by
        rintro rfl
        exact absurd (isIdle_eq_false_of_dropIdle hkept) (by decide)
      have hkeptText : Cut.text ⟨mark, segment :: rest⟩ ≠ [] := text_ne_nil hfull
      obtain ⟨first, others, hfirst⟩ := List.exists_cons_of_ne_nil hkeptText
      rw [hkept] at hsegments
      rw [hsegments, text_append (List.ne_nil_of_mem hlast) (by simp), hfirst]
      simp

/-- A path with a name is its parent and that name. -/
theorem exists_of_name? (hname : name? path = some name) :
    ∃ outer, parent? path = some outer ∧ steps path.toList = steps outer.toList ++ [name.toList] ∧
      (outer.toList.head? = some '/' ↔ path.toList.head? = some '/') := by
  have htext := text_cut path.toList
  have hsound := isSound_cut path.toList
  have hmark := mark_cut path.toList
  have habsolute := head?_eq_slash_iff path.toList
  have hslash : ∀ segment ∈ (cut path.toList).segments, '/' ∉ segment :=
    fun segment => slash_notMem_of_mem_cut
  unfold name? at hname
  unfold parent?
  generalize cut path.toList = c at *
  obtain ⟨mark, segments⟩ := c
  simp only at hname hmark hslash habsolute ⊢
  rw [← htext] at habsolute ⊢
  split at hname
  swap
  · exact absurd hname (by simp)
  next last before hdrop =>
    split at hname
    · exact absurd hname (by simp)
    obtain rfl := Option.some.inj hname
    have hidle := isIdle_eq_false_of_dropIdle hdrop
    have hkept : dropIdle before <:+ segments := by
      have hbefore : before <:+ dropIdle segments := hdrop ▸ List.suffix_cons last before
      exact ((List.dropWhile_suffix _).trans hbefore).trans (List.dropWhile_suffix _)
    have hsound' : Cut.IsSound ⟨mark, dropIdle before⟩ := by
      intro hdot
      by_cases hnone : dropIdle before = []
      · exact Or.inl hnone
      · obtain ⟨later, rfl⟩ := hkept
        refine Or.inr ?_
        have hlast := (hsound hdot).resolve_left (by simp [hnone])
        rwa [List.getLast?_append_of_ne_nil _ hnone] at hlast
    refine ⟨_, rfl, ?_, ?_⟩
    · rw [String.toList_ofList, String.toList_ofList, steps_text hmark hsound hslash,
        steps_text hmark hsound' fun segment hmem => hslash segment (hkept.subset hmem),
        ← filter_dropIdle segments, hdrop, filter_dropIdle before]
      simp [hidle]
    · rw [String.toList_ofList]
      exact head?_text_dropIdle hmark habsolute hdrop

theorem head?_append (hslash : '/' ∉ name.toList) (path : String) :
    (append path name).toList.head? = some '/' ↔ path.toList.head? = some '/' := by
  unfold append
  split
  next hempty =>
    refine iff_of_false (fun hhead => hslash (List.mem_of_head? hhead)) ?_
    simp [hempty]
  next hne =>
    have hfull : path.toList ≠ [] := fun heq => hne (String.toList_inj.mp heq)
    obtain ⟨first, others, hfirst⟩ := List.exists_cons_of_ne_nil hfull
    split <;> simp [hfirst]

end ServiceWatch.Path
