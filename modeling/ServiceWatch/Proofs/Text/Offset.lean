import Mathlib.Data.List.Basic

/-!
# Where the characters of a text begin

A text is kept as bytes, of which a character takes one to four.  The offset of a character is the
number of bytes of all characters in front of it (`getElem?_offsets`), and in that way never lies
inside a character: the text can be cut there, and the part in front of the cut has as many
characters as the offset was counted for (`exists_cut`).
-/

namespace ServiceWatch.Text

variable {text : String} {n : ℕ}

/-- How many bytes stand in front of each character, when so many stand in front of the first. -/
def offsetsFrom (start : String.Pos.Raw) : List Char → List String.Pos.Raw
  | [] => []
  | c :: cs => start :: offsetsFrom (start + c) cs

/-- How many bytes of the text stand in front of each of its characters. -/
def offsets (text : String) : List String.Pos.Raw :=
  offsetsFrom 0 text.toList

theorem getElem?_offsetsFrom (front : String) {cs : List Char} (hn : n < cs.length) :
    (offsetsFrom front.rawEndPos cs)[n]? =
      some (front ++ String.ofList (cs.take n)).rawEndPos := by
  induction cs generalizing front n with
  | nil => exact absurd hn (Nat.not_lt_zero n)
  | cons c cs ih =>
      rw [offsetsFrom]
      cases n with
      | zero => simp
      | succ n =>
          -- the bytes of the first character join those in front of it
          have hnext : front.rawEndPos + c = (front.push c).rawEndPos := String.rawEndPos_push.symm
          have hjoin : front.push c ++ String.ofList (cs.take n) =
              front ++ String.ofList ((c :: cs).take (n + 1)) := by
            rw [List.take_succ_cons, String.ofList_cons, ← String.append_singleton,
              String.append_assoc]
          rw [List.getElem?_cons_succ, hnext, ih (front.push c) (Nat.lt_of_succ_lt_succ hn), hjoin]

/-- The offset of a character is the end of the text in front of the character. -/
theorem getElem?_offsets (hn : n < text.length) :
    (offsets text)[n]? = some (String.ofList (text.toList.take n)).rawEndPos := by
  have hlength : n < text.toList.length := by
    rw [String.length_toList]
    exact hn
  have hoffsets := getElem?_offsetsFrom "" hlength
  rw [String.empty_append] at hoffsets
  exact hoffsets

/-- A text can be cut in front of each of its characters. -/
theorem exists_cut (hn : n < text.length) :
    ∃ cut : text.Pos, (offsets text)[n]? = some cut.offset ∧
      (text.sliceTo cut).copy = String.ofList (text.toList.take n) := by
  have hsplit : text =
      String.ofList (text.toList.take n) ++ String.ofList (text.toList.drop n) := by
    rw [← String.ofList_append, List.take_append_drop, String.ofList_toList]
  have hvalid : (String.ofList (text.toList.take n)).rawEndPos.IsValid text :=
    String.Pos.Raw.isValid_iff_exists_append.mpr ⟨_, _, hsplit, rfl⟩
  exact ⟨text.pos _ hvalid, getElem?_offsets hn, String.Pos.Splits.copy_sliceTo_eq ⟨hsplit, rfl⟩⟩

end ServiceWatch.Text
