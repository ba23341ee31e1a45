import ClassAtlas.Proofs.Descriptor.Document

/-!
# Removal of comments and blocks

Reading by pattern removes comments and blocks from a text.  On the text of plain
content this is the removal of comments and blocks from the content.  The argument
rests on `Skips`: no occurrence of a mark begins in a stretch of text, whatever
follows it.
-/

namespace ClassAtlas.Descriptor

open Markup
open Text (cut)

/-- The mark is found behind this stretch of text as if the text began there. -/
def Skips (mark stretch : List Char) : Prop :=
  ∀ rest, cut mark (stretch ++ rest) =
    (cut mark rest).map fun (before, after) => (stretch ++ before, after)

namespace Skips

variable {mark stretch other : List Char}

theorem nil : Skips mark [] := by
  intro rest
  cases found : cut mark rest <;> simp [found]

theorem append (first : Skips mark stretch) (second : Skips mark other) :
    Skips mark (stretch ++ other) := by
  intro rest
  rw [List.append_assoc, first, second, Option.map_map]
  simp [Function.comp_def]

/-- A stretch without the first character of the mark. -/
theorem of_not_mem {first : Char} (absent : first ∉ stretch) :
    Skips (first :: mark) stretch := by
  intro rest
  apply Text.cut_append_of_other
  intro ending isEnding nonempty isMark
  obtain ⟨character, others, rfl⟩ := List.exists_cons_of_ne_nil nonempty
  rw [List.cons_append, List.cons_prefix_cons] at isMark
  exact absent (isMark.1 ▸ isEnding.subset List.mem_cons_self)

/-- A stretch that begins like the mark and goes on otherwise. -/
theorem of_ne {first : Char} (absent : first ∉ stretch)
    (differs : ∀ rest, ¬mark <+: stretch ++ rest) : Skips (first :: mark) (first :: stretch) := by
  intro rest
  have head : ¬first :: mark <+: first :: (stretch ++ rest) := by
    rw [List.cons_prefix_cons]
    exact fun both => differs rest both.2
  rw [List.cons_append, Text.cut_cons_of_other head, of_not_mem absent, Option.map_map]
  rfl

/-- The mark behind a skipped stretch is the first one. -/
theorem cut_append (skips : Skips mark stretch) (nonempty : mark ≠ []) (rest : List Char) :
    cut mark (stretch ++ (mark ++ rest)) = some (stretch, rest) := by
  rw [skips, Text.cut_append nonempty]
  simp

end Skips

/-- Two labels that end in the same mark and do not hold it are equal as soon as one
begins like the other. -/
theorem label_eq_of_begins {left right rest : List Char} {mark : Char} (leftOpen : mark ∉ left)
    (rightOpen : mark ∉ right) (begins : left ++ [mark] <+: right ++ mark :: rest) :
    left = right := by
  induction left generalizing right with
  | nil =>
      cases right with
      | nil => rfl
      | cons first others =>
          simp only [List.nil_append, List.cons_append, List.cons_prefix_cons] at begins
          exact absurd (begins.1 ▸ List.mem_cons_self) rightOpen
  | cons character left ih =>
      cases right with
      | nil =>
          simp only [List.nil_append, List.cons_append, List.cons_prefix_cons] at begins
          exact absurd (begins.1 ▸ List.mem_cons_self) leftOpen
      | cons first others =>
          simp only [List.cons_append, List.cons_prefix_cons] at begins
          rw [List.mem_cons, not_or] at leftOpen rightOpen
          rw [begins.1, ih leftOpen.2 rightOpen.2 begins.2]

/-! ## Tags -/

section Tags

variable {name own : Name}

theorem skips_tag {label other : List Char} (apart : label ≠ other) (leftOpen : '>' ∉ label)
    (rightOpen : '>' ∉ other) (plain : '<' ∉ other) :
    Skips ('<' :: (label ++ ['>'])) ('<' :: (other ++ ['>'])) := by
  apply Skips.of_ne
  · simp [plain]
  · intro rest begins
    rw [List.append_assoc] at begins
    exact apart (label_eq_of_begins leftOpen rightOpen begins)

theorem eq_of_text_eq (same : own.text = name.text) : own = name := by
  obtain ⟨letters, _, _⟩ := own
  obtain ⟨others, _, _⟩ := name
  have equal : letters = others := by simpa [Name.text] using congrArg String.toList same
  subst equal
  rfl

theorem letters_ne (apart : own.text ≠ name.text) : name.letters ≠ own.letters := by
  intro equal
  exact apart (congrArg String.ofList equal.symm)

theorem slash_letters_ne (letters : List Char) : name.letters ≠ '/' :: letters := by
  intro equal
  have slash : '/' ∉ name.letters := Name.not_mem_letters (by decide)
  rw [equal] at slash
  exact slash List.mem_cons_self

theorem closing_not_mem (name : Name) : '>' ∉ name.letters :=
  Name.not_mem_letters (by decide)

theorem opening_not_mem (name : Name) : '<' ∉ name.letters :=
  Name.not_mem_letters (by decide)

theorem skips_opening_opening (apart : own.text ≠ name.text) :
    Skips name.openingTag own.openingTag :=
  skips_tag (letters_ne apart) (closing_not_mem _) (closing_not_mem _) (opening_not_mem _)

theorem skips_opening_closing : Skips name.openingTag own.closingTag :=
  skips_tag (slash_letters_ne own.letters) (closing_not_mem _) (by simp [closing_not_mem])
    (by simp [opening_not_mem])

theorem skips_closing_opening : Skips name.closingTag own.openingTag :=
  skips_tag (slash_letters_ne name.letters).symm (by simp [closing_not_mem])
    (closing_not_mem _) (opening_not_mem _)

theorem skips_closing_closing (apart : own.text ≠ name.text) :
    Skips name.closingTag own.closingTag := by
  refine skips_tag ?_ (by simp [closing_not_mem]) (by simp [closing_not_mem])
    (by simp [opening_not_mem])
  intro equal
  exact letters_ne apart (List.cons.inj equal).2

theorem skips_spaces {mark : List Char} (spaces : Spaces) :
    Skips ('<' :: mark) spaces.letters :=
  Skips.of_not_mem (Spaces.not_mem_letters (by decide))

theorem skips_value {mark : List Char} (value : Value) : Skips ('<' :: mark) value.letters :=
  Skips.of_not_mem (Value.not_mem_letters (by decide))

/-- The tags of a name are not found in content that does not mention it. -/
theorem skips_text {content : Content} (absent : ¬content.Mentions name.text) :
    Skips name.openingTag (content.text false) ∧ Skips name.closingTag (content.text false) := by
  induction content with
  | last spaces => exact ⟨skips_spaces spaces, skips_spaces spaces⟩
  | remark spaces comment rest ih =>
      obtain ⟨opening, closing⟩ := ih absent
      exact ⟨(skips_spaces spaces).append (Skips.nil.append opening),
        (skips_spaces spaces).append (Skips.nil.append closing)⟩
  | unclosed spaces own rest ih =>
      obtain ⟨apart, later⟩ := not_or.1 absent
      obtain ⟨opening, closing⟩ := ih later
      exact ⟨(skips_spaces spaces).append ((skips_opening_opening apart).append opening),
        (skips_spaces spaces).append (skips_closing_opening.append closing)⟩
  | leaf spaces own value rest ih =>
      obtain ⟨apart, later⟩ := not_or.1 absent
      obtain ⟨opening, closing⟩ := ih later
      exact ⟨(skips_spaces spaces).append ((skips_opening_opening apart).append
          ((skips_value value).append (skips_opening_closing.append opening))),
        (skips_spaces spaces).append (skips_closing_opening.append
          ((skips_value value).append ((skips_closing_closing apart).append closing)))⟩
  | block spaces own inner rest innerIH ih =>
      obtain ⟨apart, others⟩ := not_or.1 absent
      obtain ⟨inside, later⟩ := not_or.1 others
      obtain ⟨innerOpening, innerClosing⟩ := innerIH inside
      obtain ⟨opening, closing⟩ := ih later
      exact ⟨(skips_spaces spaces).append ((skips_opening_opening apart).append
          (innerOpening.append (skips_opening_closing.append opening))),
        (skips_spaces spaces).append (skips_closing_opening.append
          (innerClosing.append ((skips_closing_closing apart).append closing)))⟩

end Tags

/-! ## Splitting -/

namespace Block

variable {block : Block} {text before inside after rest : List Char}

theorem split_of_none (opened : block.opening ≠ []) (missing : block.find? text = none) :
    block.split text = ([], text) := by
  rw [split, dif_neg opened]
  split
  · rfl
  · simp_all

theorem split_of_some (opened : block.opening ≠ [])
    (found : block.find? text = some (before, inside, after)) :
    block.split text = (inside :: (block.split after).1, before ++ (block.split after).2) := by
  rw [split, dif_neg opened]
  split
  · simp_all
  · simp_all

/-- What is found first is what is split off first. -/
theorem inside?_eq_head? (opened : block.opening ≠ []) (text : List Char) :
    block.inside? text = (block.split text).1.head? := by
  rw [inside?]
  cases found : block.find? text with
  | none => rw [split_of_none opened found]; rfl
  | some parts =>
      obtain ⟨before, inside, after⟩ := parts
      rw [split_of_some opened found]
      rfl

/-- A stretch in which no block begins stays as it is. -/
theorem split_skip (opened : block.opening ≠ []) {stretch : List Char}
    (skips : Skips block.opening stretch) (rest : List Char) :
    block.split (stretch ++ rest) = ((block.split rest).1, stretch ++ (block.split rest).2) := by
  have shape : block.find? (stretch ++ rest) =
      (block.find? rest).map fun (before, inside, after) =>
        (stretch ++ before, inside, after) := by
    rw [find?, find?, skips rest]
    cases found : cut block.opening rest with
    | none => rfl
    | some sides => simp [Function.comp_def]
  cases found : block.find? rest with
  | none =>
      rw [found, Option.map_none] at shape
      rw [split_of_none opened shape, split_of_none opened found]
  | some parts =>
      obtain ⟨before, inside, after⟩ := parts
      rw [found, Option.map_some] at shape
      rw [split_of_some opened shape, split_of_some opened found, List.append_assoc]

/-- A block at the front is taken off. -/
theorem split_block (opened : block.opening ≠ [])
    (closed : cut block.closing text = some (inside, rest)) :
    block.split (block.opening ++ text) =
      (inside :: (block.split rest).1, (block.split rest).2) := by
  have found : block.find? (block.opening ++ text) = some ([], inside, rest) := by
    simp only [find?, Text.cut_append opened, closed, Option.map_some]
  rw [split_of_some opened found, List.nil_append]

theorem split_nil (opened : block.opening ≠ []) : block.split [] = ([], []) := by
  apply split_of_none opened
  simp [find?, cut, opened]

end Block

/-! ## Comments -/

theorem comment_opening : Block.comment.opening = '<' :: "!--".toList := by decide

theorem skips_comment_spaces (spaces : Spaces) :
    Skips Block.comment.opening spaces.letters :=
  comment_opening ▸ skips_spaces spaces

theorem skips_comment_value (value : Value) : Skips Block.comment.opening value.letters :=
  comment_opening ▸ skips_value value

theorem skips_comment_opening (name : Name) : Skips Block.comment.opening name.openingTag := by
  obtain ⟨first, others, letters, start⟩ := name.exists_cons
  have noRemark : first ≠ '!' := isNameStart_ne start (by decide)
  rw [comment_opening, Name.openingTag]
  apply Skips.of_ne
  · simp [opening_not_mem]
  · intro rest begins
    simp [letters, Ne.symm noRemark] at begins

theorem skips_comment_closing (name : Name) : Skips Block.comment.opening name.closingTag := by
  rw [comment_opening, Name.closingTag]
  apply Skips.of_ne
  · simp [opening_not_mem]
  · intro rest begins
    simp at begins

/-- Comments are removed from the text of plain content. -/
theorem remove_comments (content : Content) (rest : List Char) :
    Block.comment.remove (content.text true ++ rest) =
      content.text false ++ Block.comment.remove rest := by
  have opened : Block.comment.opening ≠ [] := by decide
  have skip : ∀ {stretch : List Char}, Skips Block.comment.opening stretch → ∀ rest,
      Block.comment.remove (stretch ++ rest) = stretch ++ Block.comment.remove rest := by
    intro stretch skips rest
    rw [Block.remove, Block.split_skip opened skips, Block.remove]
  induction content generalizing rest with
  | last spaces => exact skip (skips_comment_spaces spaces) rest
  | remark spaces comment others ih =>
      have taken : ∀ rest, Block.comment.remove (comment.text ++ rest) =
          Block.comment.remove rest := by
        intro rest
        have shape : comment.text ++ rest =
            Block.comment.opening ++ (comment.letters ++ (Block.comment.closing ++ rest)) := by
          simp [Comment.text, Block.comment]
        have closed : cut Block.comment.closing
            (comment.letters ++ (Block.comment.closing ++ rest)) = some (comment.letters, rest) :=
          cut_commentEnd comment rest
        rw [shape, Block.remove, Block.split_block opened closed, Block.remove]
      simp only [Content.text, if_true, Bool.false_eq_true, if_false, List.append_assoc,
        List.nil_append]
      rw [skip (skips_comment_spaces spaces), taken, ih]
  | unclosed spaces name others ih =>
      simp only [Content.text, List.append_assoc]
      rw [skip (skips_comment_spaces spaces), skip (skips_comment_opening name), ih]
  | leaf spaces name value others ih =>
      simp only [Content.text, List.append_assoc]
      rw [skip (skips_comment_spaces spaces), skip (skips_comment_opening name),
        skip (skips_comment_value value), skip (skips_comment_closing name), ih]
  | block spaces name inner others innerIH ih =>
      simp only [Content.text, List.append_assoc]
      rw [skip (skips_comment_spaces spaces), skip (skips_comment_opening name), innerIH,
        skip (skips_comment_closing name), ih]

/-! ## Blocks -/

theorem tagged_text (name : Name) :
    Block.tagged name.text = ⟨name.openingTag, name.closingTag⟩ := by
  simp [Block.tagged, Name.text, Name.openingTag, Name.closingTag]

/-- The blocks of a name are split off the text of content as they are from the content. -/
theorem split_text {name : Name} {content : Content} (separate : content.Separate name.text)
    (rest : List Char) :
    (Block.tagged name.text).split (content.text false ++ rest) =
      ((content.insides name.text).map (Content.text false) ++
          ((Block.tagged name.text).split rest).1,
        (content.without name.text).text false ++ ((Block.tagged name.text).split rest).2) := by
  rw [tagged_text]
  have opened : (Block.mk name.openingTag name.closingTag).opening ≠ [] := List.cons_ne_nil _ _
  induction content generalizing rest with
  | last spaces => rw [Content.text, Block.split_skip opened (skips_spaces spaces)]; rfl
  | remark spaces comment others ih =>
      simp only [Content.text, Bool.false_eq_true, if_false, List.append_assoc, List.nil_append]
      rw [Block.split_skip opened (skips_spaces spaces), ih separate]
      simp [Content.insides, Content.without, Content.text]
  | unclosed spaces own others ih =>
      simp only [Content.text, List.append_assoc]
      rw [Block.split_skip opened (skips_spaces spaces),
        Block.split_skip opened (skips_opening_opening separate.1), ih separate.2]
      simp [Content.insides, Content.without, Content.text]
  | leaf spaces own value others ih =>
      simp only [Content.text, List.append_assoc]
      rw [Block.split_skip opened (skips_spaces spaces),
        Block.split_skip opened (skips_opening_opening separate.1),
        Block.split_skip opened (skips_value value),
        Block.split_skip opened skips_opening_closing, ih separate.2]
      simp [Content.insides, Content.without, Content.text]
  | block spaces own inner others innerIH ih =>
      obtain ⟨inside, later⟩ := separate
      simp only [Content.text, List.append_assoc]
      by_cases same : own.text = name.text
      · rw [if_pos same] at inside
        obtain rfl := eq_of_text_eq same
        have closed := (skips_text inside).2.cut_append (List.cons_ne_nil _ _)
        have taken := fun rest => Block.split_block opened (closed rest)
        rw [Block.split_skip opened (skips_spaces spaces), taken, ih later]
        simp [Content.insides, Content.without, Content.text_prepend]
      · rw [if_neg same] at inside
        rw [Block.split_skip opened (skips_spaces spaces),
          Block.split_skip opened (skips_opening_opening same), innerIH inside,
          Block.split_skip opened skips_opening_closing, ih later]
        simp [Content.insides, Content.without, Content.text, same]

end ClassAtlas.Descriptor
