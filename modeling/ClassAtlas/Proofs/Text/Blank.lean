import ClassAtlas.Text.Blank
import ClassAtlas.Text.Cut
import Mathlib.Data.List.Basic
import Mathlib.Data.List.TakeWhile

/-!
# Trimmed text

Trimming takes blanks away and adds nothing, so that a trimmed text is no longer than
the text, in bytes too, and keeps all other characters.
-/

namespace ClassAtlas.Text

theorem trim_sublist (text : List Char) : (trim text).Sublist text := by
  have start : (trimStart text).Sublist text := List.dropWhile_sublist isBlank
  have ending : (trimEnd (trimStart text)).Sublist (trimStart text) := by
    have reversed := (List.dropWhile_sublist (l := (trimStart text).reverse) isBlank).reverse
    rwa [List.reverse_reverse] at reversed
  exact ending.trans start

theorem byteLength_le_of_sublist {part text : List Char} (sublist : part.Sublist text) :
    byteLength part ≤ byteLength text := by
  induction sublist with
  | slnil => exact Nat.le_refl 0
  | cons character _ ih =>
      rw [byteLength_cons]
      exact Nat.le_trans ih (Nat.le_add_left _ _)
  | cons_cons character _ ih =>
      rw [byteLength_cons, byteLength_cons]
      exact Nat.add_le_add_left ih _

/-- There are no other characters among blanks. -/
theorem not_mem_of_blank {blanks : List Char} {character : Char}
    (blank : isBlankText blanks = true) (solid : isBlank character = false) :
    character ∉ blanks := by
  intro member
  rw [List.all_eq_true.1 blank character member] at solid
  cases solid

/-- Trimming takes away blanks only. -/
theorem mem_trim {text : List Char} {character : Char} (member : character ∈ text)
    (solid : isBlank character = false) : character ∈ trim text := by
  have kept : ∀ {part : List Char}, character ∈ part → character ∈ part.dropWhile isBlank := by
    intro part inside
    rw [← List.takeWhile_append_dropWhile (p := isBlank) (l := part), List.mem_append] at inside
    rcases inside with taken | left
    · have blank := List.mem_takeWhile_imp taken
      rw [solid] at blank
      cases blank
    · exact left
  have start : character ∈ (trimStart text).reverse := List.mem_reverse.2 (kept member)
  exact List.mem_reverse.2 (kept start)

theorem trimStart_of_blank {text : List Char} (blank : isBlankText text = true) :
    trimStart text = [] :=
  List.dropWhile_eq_nil_iff.2 (List.all_eq_true.1 blank)

/-- Nothing is left of blanks. -/
theorem trim_of_blank {text : List Char} (blank : isBlankText text = true) : trim text = [] := by
  rw [trim, trimStart_of_blank blank]
  rfl

theorem byteLength_trim_le (text : List Char) : byteLength (trim text) ≤ byteLength text :=
  byteLength_le_of_sublist (trim_sublist text)

end ClassAtlas.Text
