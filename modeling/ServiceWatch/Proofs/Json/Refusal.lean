import ServiceWatch.Json.Record
import ServiceWatch.Proofs.Text.Line

/-!
# Refusals are told in one line

The text of a fault shows what stands in the document only between quotation marks or as a number;
what it *cites* as it is are names of fields, of variants and of types (`Fault.cited`).  So it is
one line as long as these names are (`isLine_message`).  The readers of single values cite no name
that they are not given, and a record is given its own; so why a document is refused is told in one
line, whatever the document is (`Record.TellsLine.isLine_refusal`).
-/

namespace ServiceWatch.Json

open Text (IsLine isLine_append isLine_ofList isLine_toString isLine_toString_int isLine_quoted
  isLine_intercalate)

/-! ### The texts of faults -/

/-- The names that the text of a fault has as they are. -/
def Fault.cited : Fault → List String
  | .mismatch (.kind _ expected) => [expected]
  | .mismatch (.range _ expected) => [expected]
  | .missingField name => [name]
  | .duplicateField name => [name]
  | .unknownVariant name expected => name :: expected
  | .wrongLength _ expected => [expected]
  | _ => []

theorem lineFeed_notMem_digitChars (n : ℕ) : '\n' ∉ Decimal.digitChars n :=
  Text.lineFeed_notMem_toDigits (by decide) (by decide) n

theorem lineFeed_notMem_significantDigits (d : Decimal) : '\n' ∉ d.significantDigits := by
  intro hmem
  apply lineFeed_notMem_digitChars d.digits
  unfold Decimal.significantDigits at hmem
  exact List.mem_reverse.mp ((List.dropWhile_sublist _).subset (List.mem_reverse.mp hmem))

theorem lineFeed_notMem_positional (d : Decimal) : '\n' ∉ d.positional := by
  have hdigits := lineFeed_notMem_significantDigits d
  unfold Decimal.positional
  dsimp only
  split
  next e _ =>
    have htake : '\n' ∉ d.significantDigits.take (e + 1) := fun hmem =>
      hdigits (List.mem_of_mem_take hmem)
    have hdrop : '\n' ∉ d.significantDigits.drop (e + 1) := fun hmem =>
      hdigits (List.mem_of_mem_drop hmem)
    split_ifs with hfraction
    · simp [htake]
    · simp [htake, hdrop]
  next => simp [hdigits]

theorem lineFeed_notMem_scientific (d : Decimal) : '\n' ∉ d.scientific := by
  have hdigits := lineFeed_notMem_significantDigits d
  unfold Decimal.scientific
  dsimp only
  rw [List.mem_append, List.mem_cons, not_or, not_or]
  refine ⟨?_, by decide, ?_⟩
  · split
    next => decide
    next heq => rwa [heq] at hdigits
    next heq =>
      rw [heq] at hdigits
      simpa using hdigits
  · split
    next e _ => simp [lineFeed_notMem_digitChars]
    next e _ => simp [lineFeed_notMem_digitChars]

theorem lineFeed_notMem_magnitudeText (rank : ℕ) : '\n' ∉ magnitudeText rank := by
  unfold magnitudeText
  dsimp only
  split_ifs
  · decide
  · exact lineFeed_notMem_positional _
  · exact lineFeed_notMem_scientific _

theorem lineFeed_notMem_floatText (x : Binary64) : '\n' ∉ floatText x := by
  unfold floatText
  split
  · decide
  next negative rank =>
    split_ifs
    · simp [lineFeed_notMem_magnitudeText]
    · simp [lineFeed_notMem_magnitudeText]
    · decide

theorem isLine_found (found : Found) :
    IsLine (found.describe fun x => String.ofList (floatText x)) := by
  unfold Found.describe
  cases found with
  | null | sequence | map => decide
  | boolean value => cases value <;> decide
  | integer value =>
      simp only [isLine_append, isLine_toString_int]
      decide
  | float value =>
      simp only [isLine_append, isLine_ofList, lineFeed_notMem_floatText, not_false_eq_true]
      decide
  | text value =>
      simp only [isLine_append, isLine_quoted]
      decide

@[simp] theorem isLine_backquoted {name : String} : IsLine (backquoted name) ↔ IsLine name := by
  have hquote : IsLine "`" := by decide
  simp [backquoted, hquote]

theorem isLine_oneOf {names : List String} (hnames : ∀ name ∈ names, IsLine name) :
    IsLine (oneOf names) := by
  unfold oneOf
  split
  next => decide
  next name =>
    have hname : IsLine name := hnames name List.mem_cons_self
    simp only [isLine_append, isLine_backquoted, hname]
    decide
  next name other =>
    have hname : IsLine name := hnames name List.mem_cons_self
    have hother : IsLine other := hnames other (by simp)
    simp only [isLine_append, isLine_backquoted, hname, hother]
    decide
  next =>
    rw [isLine_append]
    refine ⟨by decide, isLine_intercalate (by decide) fun text htext => ?_⟩
    obtain ⟨name, hname, rfl⟩ := List.mem_map.mp htext
    exact isLine_backquoted.mpr (hnames name hname)

theorem isLine_mismatch {mismatch : Mismatch}
    (hcited : ∀ name ∈ (Fault.mismatch mismatch).cited, IsLine name) :
    IsLine (mismatch.describe fun x => String.ofList (floatText x)) := by
  unfold Mismatch.describe
  cases mismatch with
  | kind found expected | range found expected =>
      have hexpected : IsLine expected := hcited expected List.mem_cons_self
      simp only [isLine_append, isLine_found, hexpected]
      decide

/-- The text of a fault is one line if the names that it cites are. -/
theorem isLine_message {fault : Fault} (hcited : ∀ name ∈ fault.cited, IsLine name) :
    IsLine fault.message := by
  cases fault with
  | endInside part => cases part <;> decide +kernel
  | mismatch mismatch => exact isLine_mismatch hcited
  | missingField name =>
      have hname : IsLine name := hcited name List.mem_cons_self
      change IsLine ("missing field " ++ backquoted name)
      rw [isLine_append, isLine_backquoted]
      exact ⟨by decide, hname⟩
  | duplicateField name =>
      have hname : IsLine name := hcited name List.mem_cons_self
      change IsLine ("duplicate field " ++ backquoted name)
      rw [isLine_append, isLine_backquoted]
      exact ⟨by decide, hname⟩
  | unknownVariant name expected =>
      have hname : IsLine name := hcited name List.mem_cons_self
      have hexpected : IsLine (oneOf expected) :=
        isLine_oneOf fun other hother => hcited other (List.mem_cons_of_mem _ hother)
      change IsLine ("unknown variant " ++ backquoted name ++ ", " ++ oneOf expected)
      simp only [isLine_append, isLine_backquoted, hname, hexpected]
      decide
  | wrongLength length expected =>
      have hexpected : IsLine expected := hcited expected List.mem_cons_self
      change IsLine ("invalid length " ++ toString length ++ ", expected " ++ expected)
      simp only [isLine_append, isLine_toString, hexpected]
      decide
  | _ => decide +kernel

/-- So is the text of a failure, which adds two numbers. -/
theorem isLine_failure {failure : Failure} (hcited : ∀ name ∈ failure.fault.cited, IsLine name)
    (document : Input) : IsLine (failure.message document) := by
  unfold Failure.message
  simp only [isLine_append, isLine_message hcited, isLine_toString]
  decide

/-! ### Readers of single values -/

/-- If the result is a failure, its fault cites lines only. -/
def TellsLine {α : Type} (result : Except Failure α) : Prop :=
  ∀ failure, result = .error failure → ∀ name ∈ failure.fault.cited, IsLine name

variable {α β : Type}

theorem tellsLine_ok (value : α) : TellsLine (.ok value) := nofun

theorem tellsLine_failAt {fault : Fault} (hcited : ∀ name ∈ fault.cited, IsLine name)
    (rest : Input) : TellsLine (failAt fault rest : Except Failure α) := by
  rintro _ ⟨⟩
  exact hcited

/-- A fault that cites nothing. -/
theorem tellsLine_bare {fault : Fault} (hcited : fault.cited = []) (rest : Input) :
    TellsLine (failAt fault rest : Except Failure α) :=
  tellsLine_failAt (by simp [hcited]) rest

theorem TellsLine.bind {first : Except Failure α} {next : α → Except Failure β}
    (hfirst : TellsLine first) (hnext : ∀ value, TellsLine (next value)) :
    TellsLine (first >>= next) := by
  intro failure heq
  cases first with
  | error other =>
      obtain rfl := Except.error.inj heq
      exact hfirst other rfl
  | ok value => exact hnext value failure heq

/-- A failure that is passed on. -/
theorem TellsLine.of_eq {result : Except Failure α} {failure : Failure} (htells : TellsLine result)
    (heq : result = .error failure) : TellsLine (.error failure : Except Failure β) := by
  rintro _ ⟨⟩
  exact htells failure heq

theorem tellsLine_readWord (word : List UInt8) (s : Input) : TellsLine (readWord word s) := by
  fun_induction readWord word s with
  | case1 => exact tellsLine_ok _
  | case2 => exact tellsLine_bare rfl _
  | case3 _ _ _ ih => exact ih
  | case4 => exact tellsLine_bare rfl _

theorem tellsLine_readHex (s : Input) : TellsLine (readHex s) := by
  fun_cases readHex s with
  | case1 => exact tellsLine_ok _
  | case2 | case3 => exact tellsLine_bare rfl _

theorem tellsLine_readTrailing (leading : ℕ) (s : Input) : TellsLine (readTrailing leading s) := by
  fun_cases readTrailing leading s with
  | case3 s =>
      refine (tellsLine_readHex s).bind fun (trailing, s) => ?_
      dsimp only
      split_ifs
      · exact tellsLine_ok _
      · exact tellsLine_bare rfl _
  | case1 | case2 | case4 | case5 => exact tellsLine_bare rfl _

theorem tellsLine_readCodePoint (s : Input) : TellsLine (readCodePoint s) := by
  refine (tellsLine_readHex s).bind fun (unit, s) => ?_
  dsimp only
  split_ifs
  · exact tellsLine_bare rfl _
  · exact tellsLine_readTrailing unit s
  · exact tellsLine_ok _

theorem tellsLine_readEscape (s : Input) : TellsLine (readEscape s) := by
  fun_cases readEscape s with
  | case2 => exact (tellsLine_readCodePoint _).bind fun _ => tellsLine_ok _
  | case3 => exact tellsLine_ok _
  | case1 | case4 => exact tellsLine_bare rfl _

theorem tellsLine_readBytes (before : List UInt8) (fuel : ℕ) (s : Input) :
    TellsLine (readBytes before fuel s) := by
  fun_induction readBytes before fuel s with
  | case3 => exact tellsLine_ok _
  | case4 _ _ _ _ _ _ _ ih | case7 _ _ _ _ _ _ _ ih => exact ih
  | case5 _ _ _ _ heq _ => exact (tellsLine_readEscape _).of_eq heq
  | case1 | case2 | case6 => exact tellsLine_bare rfl _

theorem tellsLine_readString (s : Input) : TellsLine (readString s) := by
  refine (tellsLine_readBytes [] (s.length + 1) s).bind fun (bytes, rest) => ?_
  dsimp only
  split
  · exact tellsLine_ok _
  · exact tellsLine_bare rfl _

theorem tellsLine_skipEscape (s : Input) : TellsLine (skipEscape s) := by
  fun_cases skipEscape s with
  | case2 => exact (tellsLine_readHex _).bind fun _ => tellsLine_ok _
  | case3 => exact tellsLine_ok _
  | case1 | case4 => exact tellsLine_bare rfl _

theorem tellsLine_skipString (s : Input) : TellsLine (skipString s) := by
  unfold skipString
  generalize s.length + 1 = fuel
  fun_induction skipStringWith fuel s with
  | case3 => exact tellsLine_ok _
  | case4 _ _ _ _ _ ih | case7 _ _ _ _ _ _ ih => exact ih
  | case5 _ _ _ heq _ => exact (tellsLine_skipEscape _).of_eq heq
  | case1 | case2 | case6 => exact tellsLine_bare rfl _

theorem tellsLine_openName (s : Input) : TellsLine (openName s) := by
  fun_cases openName s with
  | case1 => exact tellsLine_ok _
  | case2 | case3 => exact tellsLine_bare rfl _

theorem tellsLine_readColon (s : Input) : TellsLine (readColon s) := by
  fun_cases readColon s with
  | case1 => exact tellsLine_ok _
  | case2 | case3 => exact tellsLine_bare rfl _

theorem tellsLine_readName? (first : Bool) (s : Input) : TellsLine (readName? first s) := by
  fun_cases readName? first s with
  | case2 => exact tellsLine_ok _
  | case3 | case6 => exact (tellsLine_readString _).bind fun _ => tellsLine_ok _
  | _ => exact tellsLine_bare rfl _

theorem tellsLine_readElement? (first : Bool) (s : Input) : TellsLine (readElement? first s) := by
  fun_cases readElement? first s with
  | case2 | case3 | case6 => exact tellsLine_ok _
  | _ => exact tellsLine_bare rfl _

theorem tellsLine_closeObject (s : Input) : TellsLine (closeObject s) := by
  fun_cases closeObject s with
  | case2 => exact tellsLine_ok _
  | _ => exact tellsLine_bare rfl _

theorem tellsLine_closeList (s : Input) : TellsLine (closeList s) := by
  fun_cases closeList s with
  | case2 => exact tellsLine_ok _
  | _ => exact tellsLine_bare rfl _

theorem tellsLine_readEnd (s : Input) : TellsLine (readEnd s) := by
  fun_cases readEnd s with
  | case1 => exact tellsLine_ok _
  | case2 => exact tellsLine_bare rfl _

/-! ### Numbers -/

theorem tellsLine_scaled (negative : Bool) (significand : ℕ) (exponent : Int) (s : Input) :
    TellsLine (scaled negative significand exponent s) := by
  fun_cases scaled negative significand exponent s with
  | case1 => exact tellsLine_ok _
  | case2 | case3 => exact tellsLine_bare rfl _

theorem tellsLine_readExponent (negative : Bool) (significand : ℕ) (exponent : Int) (s : Input) :
    TellsLine (readExponent negative significand exponent s) := by
  fun_cases readExponent negative significand exponent s with
  | case4 => exact tellsLine_ok _
  | case5 => exact tellsLine_scaled _ _ _ _
  | _ => exact tellsLine_bare rfl _

theorem tellsLine_readScale (negative : Bool) (significand : ℕ) (exponent : Int) (s : Input) :
    TellsLine (readScale negative significand exponent s) := by
  fun_cases readScale negative significand exponent s with
  | case1 => exact tellsLine_readExponent _ _ _ _
  | case2 | case3 => exact tellsLine_scaled _ _ _ _

theorem tellsLine_readFraction (negative : Bool) (significand : ℕ) (exponent : Int) (s : Input) :
    TellsLine (readFraction negative significand exponent s) := by
  fun_cases readFraction negative significand exponent s with
  | case1 | case4 => exact tellsLine_readScale _ _ _ _
  | _ => exact tellsLine_bare rfl _

theorem tellsLine_readTail (negative : Bool) (significand : ℕ) (s : Input) :
    TellsLine (readTail negative significand s) := by
  fun_cases readTail negative significand s with
  | case1 => exact (tellsLine_readFraction _ _ _ _).bind fun _ => tellsLine_ok _
  | case2 => exact (tellsLine_readScale _ _ _ _).bind fun _ => tellsLine_ok _
  | case3 | case4 => exact tellsLine_ok _

theorem tellsLine_readLongTail (negative : Bool) (significand : ℕ) (s : Input) :
    TellsLine (readLongTail negative significand s) := by
  fun_cases readLongTail negative significand s with
  | case1 => exact (tellsLine_readFraction _ _ _ _).bind fun _ => tellsLine_ok _
  | case2 => exact (tellsLine_readScale _ _ _ _).bind fun _ => tellsLine_ok _

theorem tellsLine_readNumeral (negative : Bool) (s : Input) :
    TellsLine (readNumeral negative s) := by
  fun_cases readNumeral negative s with
  | case3 | case4 | case6 => exact tellsLine_readTail _ _ _
  | case5 => exact tellsLine_readLongTail _ _ _
  | _ => exact tellsLine_bare rfl _

theorem tellsLine_skipDigits (s : Input) : TellsLine (skipDigits s) := by
  fun_cases skipDigits s with
  | case2 => exact tellsLine_ok _
  | _ => exact tellsLine_bare rfl _

theorem tellsLine_skipExponent (s : Input) : TellsLine (skipExponent s) := by
  fun_cases skipExponent s <;> exact tellsLine_skipDigits _

theorem tellsLine_skipTail (s : Input) : TellsLine (skipTail s) := by
  fun_cases skipTail s with
  | case1 =>
      refine (tellsLine_skipDigits _).bind fun _ => ?_
      split
      · exact tellsLine_skipExponent _
      · exact tellsLine_skipExponent _
      · exact tellsLine_ok _
  | case2 | case3 => exact tellsLine_skipExponent _
  | case4 => exact tellsLine_ok _

theorem tellsLine_skipNumeral (s : Input) : TellsLine (skipNumeral s) := by
  fun_cases skipNumeral s with
  | case2 | case4 => exact tellsLine_skipTail _
  | case3 => exact tellsLine_ok _
  | _ => exact tellsLine_bare rfl _

/-! ### Values that are passed over -/

theorem tellsLine_skipToValue (bracket : Bracket) (s : Input) :
    TellsLine (skipToValue bracket s) := by
  cases bracket with
  | square => exact tellsLine_ok _
  | curly =>
      exact (tellsLine_openName s).bind fun s =>
        (tellsLine_skipString s).bind fun s => tellsLine_readColon s

theorem tellsLine_skipStart (s : Input) : TellsLine (skipStart s) := by
  fun_cases skipStart s with
  | case2 | case3 | case4 => exact (tellsLine_readWord _ _).bind fun _ => tellsLine_ok _
  | case5 | case6 => exact (tellsLine_skipNumeral _).bind fun _ => tellsLine_ok _
  | case7 => exact (tellsLine_skipString _).bind fun _ => tellsLine_ok _
  | case8 | case9 => exact tellsLine_ok _
  | _ => exact tellsLine_bare rfl _

theorem tellsLine_skipStep (opened : List Bracket) (expectation : Expectation) (s : Input) :
    TellsLine (skipStep opened expectation s) := by
  fun_cases skipStep opened expectation s with
  | case1 =>
      refine (tellsLine_skipStart s).bind fun (bracket, s) => ?_
      cases bracket with
      | some bracket => exact tellsLine_ok _
      | none => exact tellsLine_ok _
  | case2 | case4 => exact tellsLine_ok _
  | case5 | case6 => exact (tellsLine_skipToValue _ _).bind fun _ => tellsLine_ok _
  | case3 _ bracket | case7 _ bracket => cases bracket <;> exact tellsLine_bare rfl _

theorem tellsLine_skipValue (s : Input) : TellsLine (skipValue s) := by
  unfold skipValue
  generalize 2 * s.length + 2 = fuel
  generalize ([] : List Bracket) = opened
  generalize Expectation.value = expectation
  fun_induction skipWith fuel opened expectation s with
  | case1 => exact tellsLine_bare rfl _
  | case2 _ _ _ _ _ heq => exact (tellsLine_skipStep _ _ _).of_eq heq
  | case3 => exact tellsLine_ok _
  | case4 _ _ _ _ _ _ _ _ ih => exact ih

/-! ### Values of a known type -/

theorem tellsLine_readWrongKind {expected : String} (hexpected : IsLine expected) (s : Input) :
    TellsLine (readWrongKind expected s : Except Failure α) := by
  have hkind : ∀ found rest,
      TellsLine (failAt (wrongKind found expected) rest : Except Failure α) := by
    intro found rest
    refine tellsLine_failAt ?_ rest
    exact List.forall_mem_singleton.mpr hexpected
  fun_cases readWrongKind expected s with
  | case2 | case3 | case4 => exact (tellsLine_readWord _ _).bind fun _ => hkind _ _
  | case5 | case6 => exact (tellsLine_readNumeral _ _).bind fun _ => hkind _ _
  | case7 => exact (tellsLine_readString _).bind fun _ => hkind _ _
  | case8 | case9 => exact hkind _ _
  | _ => exact tellsLine_bare rfl _

theorem tellsLine_readNumber {expected : String} (hexpected : IsLine expected) (s : Input) :
    TellsLine (readNumber expected s) := by
  fun_cases readNumber expected s with
  | case1 => exact tellsLine_bare rfl _
  | case2 | case3 => exact tellsLine_readNumeral _ _
  | case4 => exact tellsLine_readWrongKind hexpected _

theorem tellsLine_readUInt64 (s : Input) : TellsLine (readUInt64 s) := by
  refine (tellsLine_readNumber (by decide) s).bind fun (numeral, s) => ?_
  cases numeral with
  | unsigned value => exact tellsLine_ok _
  | negative magnitude | float value =>
      exact tellsLine_failAt (List.forall_mem_singleton.mpr (by decide)) s

theorem tellsLine_readBinary64 (s : Input) : TellsLine (readBinary64 s) :=
  (tellsLine_readNumber (by decide) s).bind fun _ => tellsLine_ok _

theorem tellsLine_readOptional {read : Input → Except Failure (α × Input)}
    (hread : ∀ s, TellsLine (read s)) (s : Input) : TellsLine (readOptional read s) := by
  fun_cases readOptional read s with
  | case1 => exact (tellsLine_readWord _ _).bind fun _ => tellsLine_ok _
  | case2 => exact (hread _).bind fun _ => tellsLine_ok _

/-! ### Records -/

namespace Record

variable {σ : Type} {record : Record σ}

/-- The names of the record and of its fields are lines, and so are the refusals of its fields. -/
structure TellsLine (record : Record σ) : Prop where
  expected : IsLine record.expected
  names : ∀ field ∈ record.fields, IsLine field.name
  read : ∀ field ∈ record.fields, ∀ value s, Json.TellsLine (field.read value s)

theorem TellsLine.readMembers (htells : record.TellsLine) (fuel : ℕ) (first : Bool)
    (seen : List String) (value : σ) (s : Input) :
    Json.TellsLine (record.readMembers fuel first seen value s) := by
  fun_induction record.readMembers fuel first seen value s with
  | case1 => exact tellsLine_bare rfl _
  | case2 => exact (tellsLine_readName? _ _).of_eq ‹_›
  | case3 => exact tellsLine_ok _
  | case4 fuel first seen value s name rest hname field hfield =>
      refine tellsLine_failAt (List.forall_mem_singleton.mpr ?_) _
      have hsame : field.name = name := by simpa using List.find?_some hfield
      exact hsame ▸ htells.names field (List.mem_of_find?_eq_some hfield)
  | case5 | case8 => exact (tellsLine_readColon _).of_eq ‹_›
  | case6 fuel first seen value s name rest hname field hfield =>
      exact (htells.read field (List.mem_of_find?_eq_some hfield) _ _).of_eq ‹_›
  | case9 => exact (tellsLine_skipValue _).of_eq ‹_›
  | case7 => assumption
  | case10 => assumption

theorem TellsLine.readObject (htells : record.TellsLine) (s : Input) :
    Json.TellsLine (record.readObject s) := by
  refine (htells.readMembers _ _ _ _ _).bind fun ((seen, value), s) => ?_
  dsimp only
  split
  next name hmissing =>
    refine tellsLine_failAt (List.forall_mem_singleton.mpr ?_) _
    obtain ⟨field, hfield, rfl⟩ := Option.map_eq_some_iff.mp hmissing
    exact htells.names field (List.mem_of_find?_eq_some hfield)
  next => exact (tellsLine_closeObject s).bind fun _ => tellsLine_ok _

theorem isLine_lengthText {expected : String} (hexpected : IsLine expected) (n : ℕ) :
    IsLine (lengthText expected n) := by
  simp only [lengthText, isLine_append, hexpected, isLine_toString]
  split_ifs <;> decide

theorem TellsLine.readElements (htells : record.TellsLine) {done : ℕ} {fields : List (Field σ)}
    (hfields : fields ⊆ record.fields) (value : σ) (s : Input) :
    Json.TellsLine (record.readElements done fields value s) := by
  fun_induction record.readElements done fields value s with
  | case1 | case6 => exact tellsLine_ok _
  | case2 => exact (tellsLine_readElement? _ _).of_eq ‹_›
  | case3 => exact (htells.read _ (hfields List.mem_cons_self) _ _).of_eq ‹_›
  | case4 _ _ _ _ _ _ _ _ _ _ ih => exact ih fun _ hmem => hfields (List.mem_cons_of_mem _ hmem)
  | case5 =>
      refine tellsLine_failAt (List.forall_mem_singleton.mpr ?_) _
      exact isLine_lengthText htells.expected _

theorem TellsLine.readRecord (htells : record.TellsLine) (s : Input) :
    Json.TellsLine (record.read s) := by
  fun_cases record.read s with
  | case1 => exact tellsLine_bare rfl _
  | case2 =>
      exact (htells.readElements (List.Subset.refl _) _ _).bind fun _ =>
        (tellsLine_closeList _).bind fun _ => tellsLine_ok _
  | case3 => exact htells.readObject _
  | case4 => exact tellsLine_readWrongKind htells.expected _

/-- A record that is given lines only tells in one line why a document is refused. -/
theorem TellsLine.isLine_refusal (htells : record.TellsLine) {document : Input} {failure : Failure}
    (hrefused : record.readDocument document = .error failure) :
    IsLine (failure.message document) := by
  refine isLine_failure (?_ : ∀ name ∈ failure.fault.cited, IsLine name) document
  refine TellsLine.bind (htells.readRecord document) (fun _ => ?_) failure hrefused
  exact (tellsLine_readEnd _).bind fun _ => tellsLine_ok _

end Record

end ServiceWatch.Json
