import ServiceWatch.Endpoint
import ServiceWatch.Proofs.Text.Offset
import ServiceWatch.Proofs.Text.Trim

/-!
# What is kept of a body

A body is kept without the blanks at its ends, and of a long one only the beginning is kept, with
dots behind it.  What is kept has no blanks at its ends and is either short or a beginning with dots
(`isExcerpt_excerpt`), and a text like that is kept as it is (`IsExcerpt.excerpt_eq`).  Dots that
were put behind a beginning make it longer than what is kept whole, so it is cut off once more when
it is kept again; but it is cut off in front of the dots, and gets the same dots back.
-/

namespace ServiceWatch.EndpointFailure

variable {body text : String}

/-- The beginning of a text, as long as what is kept whole. -/
def beginning (text : String) : String :=
  String.ofList (text.toList.take excerptLength)

/-- There are no blanks at the ends, and what is there is short or ends with dots behind as many
characters as are kept. -/
structure IsExcerpt (text : String) : Prop where
  bare : Text.HasBareEnds text.toList
  short : text.length ≤ excerptLength ∨
    ∃ front : String, front.length = excerptLength ∧ text = front ++ "..."

theorem length_beginning (hlong : excerptLength < text.length) :
    (beginning text).length = excerptLength := by
  rw [beginning, String.length_ofList, List.length_take, String.length_toList]
  omega

theorem beginning_append {front : String} (hfront : front.length = excerptLength) (back : String) :
    beginning (front ++ back) = front := by
  have hlength : front.toList.length = excerptLength := by
    rw [String.length_toList]
    exact hfront
  rw [beginning, String.toList_append, List.take_left' hlength, String.ofList_toList]

theorem length_dotted {front : String} (hfront : front.length = excerptLength) :
    (front ++ "...").length = excerptLength + 3 := by
  have hdots : "...".length = 3 := by decide
  rw [String.length_append, hfront, hdots]

/-! ### Short and long bodies -/

theorem excerpt_eq_ite (body : String) :
    excerpt body =
      if excerptLength < (Text.trim body).length then beginning (Text.trim body) ++ "..."
      else Text.trim body := by
  rw [excerpt, String.length_toList, String.ofList_append, String.ofList_toList]
  rfl

theorem excerpt_of_le (hshort : (Text.trim body).length ≤ excerptLength) :
    excerpt body = Text.trim body := by
  rw [excerpt_eq_ite, if_neg (by omega)]

theorem excerpt_of_lt (hlong : excerptLength < (Text.trim body).length) :
    excerpt body = beginning (Text.trim body) ++ "..." := by
  rw [excerpt_eq_ite, if_pos hlong]

/-! ### The form of what is kept -/

/-- Dots behind the beginning of a long text leave its first character, and the last is a dot. -/
theorem hasBareEnds_dotted (hends : Text.HasBareEnds text.toList)
    (hlong : excerptLength < text.length) :
    Text.HasBareEnds (beginning text ++ "...").toList := by
  rw [String.toList_append]
  constructor
  · have hfront : (beginning text).toList.head? = text.toList.head? := by
      rw [beginning, String.toList_ofList, List.head?_take, if_neg (by decide)]
    have hne : text.toList ≠ [] := by
      apply List.ne_nil_of_length_pos
      rw [String.length_toList]
      omega
    rw [List.head?_append, hfront, Option.or_of_isSome (List.isSome_head?.mpr hne)]
    exact hends.first
  · have hlast : ((beginning text).toList ++ "...".toList).getLast? = some '.' := by
      rw [List.getLast?_append]
      rfl
    rw [hlast]
    intro c hc
    obtain rfl := Option.mem_some_iff.mp hc
    decide

theorem isExcerpt_excerpt (body : String) : IsExcerpt (excerpt body) := by
  have hends : Text.HasBareEnds (Text.trim body).toList := Text.hasBareEnds_trim body
  rcases Nat.lt_or_ge excerptLength (Text.trim body).length with hlong | hshort
  · rw [excerpt_of_lt hlong]
    exact ⟨hasBareEnds_dotted hends hlong, Or.inr ⟨_, length_beginning hlong, rfl⟩⟩
  · rw [excerpt_of_le hshort]
    exact ⟨hends, Or.inl hshort⟩

theorem IsExcerpt.length_le (htext : IsExcerpt text) : text.length ≤ excerptLength + 3 := by
  rcases htext.short with hshort | ⟨front, hfront, rfl⟩
  · omega
  · exact Nat.le_of_eq (length_dotted hfront)

theorem IsExcerpt.excerpt_eq (htext : IsExcerpt text) : excerpt text = text := by
  have htrim : Text.trim text = text := Text.trim_eq_self_iff.mpr htext.bare
  rcases htext.short with hshort | ⟨front, hfront, rfl⟩
  · rw [excerpt_of_le (by rwa [htrim]), htrim]
  · have hlong : excerptLength < (front ++ "...").length := by
      rw [length_dotted hfront]
      omega
    rw [excerpt_of_lt (by rwa [htrim]), htrim, beginning_append hfront]

/-- **What is kept of a body is bounded, never ends inside a character, and is kept as it is when it
comes again.**  Of a body without the blanks at its ends all is kept if that has 256 characters at
most.  Otherwise the first 256 characters are kept, with dots behind them: they end where, in bytes,
the next character begins, so that no character is cut in two.  What is kept has 259 characters at
most and no blanks at its ends. -/
theorem ofStatus_keeps_excerpt (code : UInt16) (body : String) :
    ∃ text kept : String, Text.Trims body.toList text.toList ∧
      ofStatus code body = .status code kept ∧
      (text.length ≤ 256 → kept = text) ∧
      (256 < text.length → ∃ cut : String.Pos.Raw, (Text.offsets text)[256]? = some cut ∧
        ∃ hboundary : cut.IsValid text,
          (text.sliceTo (text.pos cut hboundary)).copy.toList = text.toList.take 256 ∧
          kept = (text.sliceTo (text.pos cut hboundary)).copy ++ "...") ∧
      kept.length ≤ 259 ∧ Text.HasBareEnds kept.toList ∧
      ∀ again, ofStatus again kept = .status again kept := by
  have hkept : IsExcerpt (excerpt body) := isExcerpt_excerpt body
  refine ⟨Text.trim body, excerpt body, Text.trim_eq_iff.mp rfl, rfl, excerpt_of_le, ?_,
    hkept.length_le, hkept.bare, ?_⟩
  · intro hlong
    obtain ⟨cut, hcut, hslice⟩ := Text.exists_cut hlong
    refine ⟨cut.offset, hcut, cut.isValid, ?_, ?_⟩
    · exact (congrArg String.toList hslice).trans String.toList_ofList
    · exact (excerpt_of_lt hlong).trans (congrArg (· ++ "...") hslice.symm)
  · intro again
    rw [ofStatus, hkept.excerpt_eq]

/-- A ruled line of so many dashes, and what is written behind it. -/
def ruled (n : ℕ) (note : String) : String :=
  String.ofList (List.replicate n '-') ++ note

/-- A body with that between blanks. -/
def page (n : ℕ) (note : String) : String :=
  "\t\u3000" ++ ruled n note ++ "\r\n"

theorem toList_ruled (n : ℕ) (note : String) :
    (ruled n note).toList = List.replicate n '-' ++ note.toList := by
  rw [ruled, String.toList_append, String.toList_ofList]

theorem length_ruled (n : ℕ) (note : String) : (ruled n note).length = n + note.length := by
  rw [ruled, String.length_append, String.length_ofList, List.length_replicate]

theorem trim_page {n : ℕ} {note : String} {c : Char} (hlast : note.toList.getLast? = some c)
    (hc : Text.isBlank c = false) : Text.trim (page (n + 1) note) = ruled (n + 1) note := by
  have hends : Text.HasBareEnds (ruled (n + 1) note).toList := by
    rw [toList_ruled]
    constructor
    · intro first hfirst
      obtain rfl := Option.some.inj hfirst
      decide
    · rw [List.getLast?_append, hlast, Option.some_or]
      intro last hmem
      obtain rfl := Option.some.inj hmem
      exact hc
  have hbefore : Text.AreBlank ['\t', '\u3000'] := (Text.areBlank_nil.cons rfl).cons rfl
  have hafter : Text.AreBlank ['\r', '\n'] := (Text.areBlank_nil.cons rfl).cons rfl
  have hfront : "\t\u3000".toList = ['\t', '\u3000'] := by decide
  have hback : "\r\n".toList = ['\r', '\n'] := by decide
  refine Text.trim_eq_iff.mpr ⟨hends, _, _, hbefore, hafter, ?_⟩
  rw [page, String.toList_append, String.toList_append, hfront, hback, List.append_assoc]

/-- A text of 256 characters is kept whole.  One with a blank for the 256th is cut off behind the
blank, in front of a character of four bytes, and what is kept of it is kept as it is. -/
theorem ofStatus_page :
    (ruled 254 "é😀").length ≤ 256 ∧
      ofStatus 503 (page 254 "é😀") = .status 503 (ruled 254 "é😀") ∧
      256 < (ruled 254 "é 😀").length ∧ (Text.offsets (ruled 254 "é 😀"))[256]? = some ⟨257⟩ ∧
      String.Pos.Raw.IsValid (ruled 254 "é 😀") ⟨257⟩ ∧
      ofStatus 503 (page 254 "é 😀") = .status 503 (ruled 254 "é ...") ∧
      ofStatus 502 (ruled 254 "é ...") = .status 502 (ruled 254 "é ...") := by
  have hshort : (ruled 254 "é😀").length ≤ 256 := by
    rw [length_ruled]
    decide
  have hlong : 256 < (ruled 254 "é 😀").length := by
    rw [length_ruled]
    decide
  have hoffset : (Text.offsets (ruled 254 "é 😀"))[256]? = some ⟨257⟩ := by
    rw [Text.offsets, toList_ruled]
    decide +kernel
  have hfront : (ruled 254 "é 😀").toList.take 256 = (ruled 254 "é ").toList := by
    rw [toList_ruled, toList_ruled]
    decide +kernel
  have hdots : ruled 254 "é " ++ "..." = ruled 254 "é ..." :=
    String.append_assoc.trans (congrArg _ (by decide))
  refine ⟨hshort, ?_, hlong, hoffset, ?_⟩
  · obtain ⟨text, kept, htrims, hstatus, hwhole, -⟩ := ofStatus_keeps_excerpt 503 (page 254 "é😀")
    obtain rfl : text = ruled 254 "é😀" :=
      (Text.trim_eq_iff.mpr htrims).symm.trans (trim_page (c := '😀') (by decide) (by decide))
    rw [hstatus, hwhole hshort]
  · obtain ⟨text, kept, htrims, hstatus, -, hbegins, -, -, hagain⟩ :=
      ofStatus_keeps_excerpt 503 (page 254 "é 😀")
    obtain rfl : text = ruled 254 "é 😀" :=
      (Text.trim_eq_iff.mpr htrims).symm.trans (trim_page (c := '😀') (by decide) (by decide))
    obtain ⟨cut, hcut, hboundary, hslice, hkept⟩ := hbegins hlong
    obtain rfl : ⟨257⟩ = cut := Option.some.inj (hoffset.symm.trans hcut)
    rw [String.toList_inj.mp (hslice.trans hfront), hdots] at hkept
    rw [hkept] at hstatus hagain
    exact ⟨hboundary, hstatus, hagain 502⟩

end ServiceWatch.EndpointFailure
