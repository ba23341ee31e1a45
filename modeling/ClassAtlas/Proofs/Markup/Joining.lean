import ClassAtlas.Proofs.Markup.Content

/-!
# Joining content

Content can be cut between any two of its parts, and joined again.  What is looked up or removed
in joined content is what is looked up or removed in its pieces (`insides_append`,
`without_append`).
-/

namespace ClassAtlas.Markup

namespace Content

/-- The content with other content behind it. -/
def append : Content → Content → Content
  | last spaces, back => back.prepend spaces
  | remark spaces comment rest, back => remark spaces comment (rest.append back)
  | unclosed spaces name rest, back => unclosed spaces name (rest.append back)
  | leaf spaces name value rest, back => leaf spaces name value (rest.append back)
  | block spaces name inner rest, back => block spaces name inner (rest.append back)

/-! ## More spaces -/

section Prepend

variable (first spaces : Spaces) (name : String) (content back : Content)

theorem prepend_none : content.prepend .none = content := by
  cases content <;> rfl

theorem prepend_prepend :
    (content.prepend spaces).prepend first = content.prepend (first.append spaces) := by
  cases content <;> simp [prepend, Spaces.append]

theorem append_prepend :
    (content.prepend spaces).append back = (content.append back).prepend spaces := by
  cases content with
  | last own => exact (prepend_prepend spaces own back).symm
  | remark | unclosed | leaf | block => rfl

@[simp] theorem insides_prepend : (content.prepend spaces).insides name = content.insides name := by
  cases content <;> rfl

@[simp] theorem mentions_prepend :
    (content.prepend spaces).Mentions name ↔ content.Mentions name := by
  cases content <;> rfl

@[simp] theorem separate_prepend :
    (content.prepend spaces).Separate name ↔ content.Separate name := by
  cases content <;> rfl

theorem without_prepend :
    (content.prepend spaces).without name = (content.without name).prepend spaces := by
  cases content with
  | block own other inner rest =>
      rw [prepend, without, without]
      split
      · rw [prepend_prepend]
      · rfl
  | last | remark | unclosed | leaf => rfl

end Prepend

/-! ## Pieces -/

section Append

variable (name : String) (front back : Content)

theorem insides_append :
    (front.append back).insides name = front.insides name ++ back.insides name := by
  induction front with
  | last spaces => exact insides_prepend spaces name back
  | remark spaces comment rest ih => exact ih
  | unclosed spaces own rest ih => exact ih
  | leaf spaces own value rest ih => exact ih
  | block spaces own inner rest innerIH ih =>
      rw [append, insides, ih, ← List.append_assoc]
      rfl

theorem without_append :
    (front.append back).without name = (front.without name).append (back.without name) := by
  induction front with
  | last spaces => exact without_prepend spaces name back
  | remark spaces comment rest ih => rw [append, without, ih]; rfl
  | unclosed spaces own rest ih => rw [append, without, ih]; rfl
  | leaf spaces own value rest ih => rw [append, without, ih]; rfl
  | block spaces own inner rest innerIH ih =>
      rw [append, without, ih, without]
      split
      · rw [append_prepend]
      · rfl

theorem separate_append :
    (front.append back).Separate name ↔ front.Separate name ∧ back.Separate name := by
  induction front with
  | last spaces => rw [append, separate_prepend, Separate, true_and]
  | remark spaces comment rest ih => exact ih
  | unclosed _ _ _ ih | leaf _ _ _ _ ih | block _ _ _ _ _ ih =>
      rw [append, Separate, Separate, ih, and_assoc]

end Append

/-! ## Separate blocks -/

section Separate

variable {name other : String} {content : Content}

theorem mentions_of_without (mentions : (content.without other).Mentions name) :
    content.Mentions name := by
  induction content with
  | last spaces => exact mentions
  | remark spaces comment rest ih => exact ih mentions
  | unclosed spaces own rest ih => exact mentions.imp_right ih
  | leaf spaces own value rest ih => exact mentions.imp_right ih
  | block spaces own inner rest innerIH ih =>
      rw [without] at mentions
      split at mentions
      · exact .inr (.inr (ih ((mentions_prepend _ _ _).1 mentions)))
      · exact mentions.imp_right (Or.imp innerIH ih)

/-- Blocks of one name stay apart when others are removed. -/
theorem Separate.without (separate : content.Separate name) (other : String) :
    (content.without other).Separate name := by
  induction content with
  | last spaces => trivial
  | remark spaces comment rest ih => exact ih separate
  | unclosed spaces own rest ih => exact ⟨separate.1, ih separate.2⟩
  | leaf spaces own value rest ih => exact ⟨separate.1, ih separate.2⟩
  | block spaces own inner rest innerIH ih =>
      obtain ⟨inside, later⟩ := separate
      rw [Content.without]
      split
      · exact (separate_prepend _ _ _).2 (ih later)
      · refine ⟨?_, ih later⟩
        split at inside
        · rename_i same
          rw [if_pos same]
          exact fun mentions => inside (mentions_of_without mentions)
        · rename_i apart
          rw [if_neg apart]
          exact innerIH inside

end Separate

end Content
end ClassAtlas.Markup
