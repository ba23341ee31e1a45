import ClassAtlas.Proofs.Markup.Lexeme

/-!
# Plain content

The content of an element without attributes, as it may be written: leaves that hold a
value, blocks that hold other elements, and spaces and comments between them.  A start
tag that is never closed may stand there too, which makes the document ill-formed.

Blocks can be looked up and removed in the content itself.  Removing those of one name
keeps what others state.
-/

namespace ClassAtlas.Markup

/-- The content of an element.  Spaces, or nothing, stand before each part of it and at
its end. -/
inductive Content where
  | last (spaces : Spaces)
  | remark (spaces : Spaces) (comment : Comment) (rest : Content)
  | unclosed (spaces : Spaces) (name : Name) (rest : Content)
  | leaf (spaces : Spaces) (name : Name) (value : Value) (rest : Content)
  | block (spaces : Spaces) (name : Name) (inner rest : Content)

namespace Content

/-- The content as it is written, with its comments or without them. -/
def text (remarks : Bool) : Content → List Char
  | last spaces => spaces.letters
  | remark spaces comment rest =>
      spaces.letters ++ ((if remarks then comment.text else []) ++ rest.text remarks)
  | unclosed spaces name rest => spaces.letters ++ (name.openingTag ++ rest.text remarks)
  | leaf spaces name value rest =>
      spaces.letters ++ (name.openingTag ++ (value.letters ++ (name.closingTag ++
        rest.text remarks)))
  | block spaces name inner rest =>
      spaces.letters ++ (name.openingTag ++ (inner.text remarks ++ (name.closingTag ++
        rest.text remarks)))

/-- The document whose root element has this name and content. -/
def document (name : Name) (content : Content) : List Char :=
  name.openingTag ++ (content.text true ++ name.closingTag)

/-- The number of tags that are never closed. -/
def unclosedCount : Content → Nat
  | last _ => 0
  | remark _ _ rest => rest.unclosedCount
  | unclosed _ _ rest => rest.unclosedCount + 1
  | leaf _ _ _ rest => rest.unclosedCount
  | block _ _ inner rest => inner.unclosedCount + rest.unclosedCount

/-- The value of the first leaf of this name. -/
def value? (name : String) : Content → Option String
  | last _ => none
  | remark _ _ rest => rest.value? name
  | unclosed _ _ rest => rest.value? name
  | leaf _ own value rest => if own.text = name then some value.text else rest.value? name
  | block _ _ _ rest => rest.value? name

/-- The names and values of the leaves, those inside blocks included. -/
def leaves : Content → List (Name × Value)
  | last _ => []
  | remark _ _ rest => rest.leaves
  | unclosed _ _ rest => rest.leaves
  | leaf _ name value rest => (name, value) :: rest.leaves
  | block _ _ inner rest => inner.leaves ++ rest.leaves

/-- The blocks, without those inside other blocks. -/
def blocks : Content → List (Name × Content)
  | last _ => []
  | remark _ _ rest => rest.blocks
  | unclosed _ _ rest => rest.blocks
  | leaf _ _ _ rest => rest.blocks
  | block _ name inner rest => (name, inner) :: rest.blocks

/-- What stands inside the blocks of this name. -/
def blocksNamed (name : String) (content : Content) : List Content :=
  (content.blocks.filter fun block => block.1.text = name).map Prod.snd

/-- What stands inside the first block of this name. -/
def block? (name : String) (content : Content) : Option Content :=
  (content.blocksNamed name).head?

/-- A tag of this name stands in the content, on whichever level. -/
def Mentions (name : String) : Content → Prop
  | last _ => False
  | remark _ _ rest => rest.Mentions name
  | unclosed _ own rest => own.text = name ∨ rest.Mentions name
  | leaf _ own _ rest => own.text = name ∨ rest.Mentions name
  | block _ own inner rest => own.text = name ∨ inner.Mentions name ∨ rest.Mentions name

/-- The content with more spaces before it. -/
def prepend (spaces : Spaces) : Content → Content
  | last own => last (spaces.append own)
  | remark own comment rest => remark (spaces.append own) comment rest
  | unclosed own name rest => unclosed (spaces.append own) name rest
  | leaf own name value rest => leaf (spaces.append own) name value rest
  | block own name inner rest => block (spaces.append own) name inner rest

/-- The content without its unclosed tags. -/
def mended : Content → Content
  | last spaces => last spaces
  | remark spaces comment rest => remark spaces comment rest.mended
  | unclosed spaces _ rest => rest.mended.prepend spaces
  | leaf spaces name value rest => leaf spaces name value rest.mended
  | block spaces name inner rest => block spaces name inner.mended rest.mended

/-- The content without the blocks of this name. -/
def without (name : String) : Content → Content
  | last spaces => last spaces
  | remark spaces comment rest => remark spaces comment (rest.without name)
  | unclosed spaces own rest => unclosed spaces own (rest.without name)
  | leaf spaces own value rest => leaf spaces own value (rest.without name)
  | block spaces own inner rest =>
      if own.text = name then (rest.without name).prepend spaces
      else block spaces own (inner.without name) (rest.without name)

/-- What stands inside the blocks of this name, on whichever level. -/
def insides (name : String) : Content → List Content
  | last _ => []
  | remark _ _ rest => rest.insides name
  | unclosed _ _ rest => rest.insides name
  | leaf _ _ _ rest => rest.insides name
  | block _ own inner rest =>
      (if own.text = name then [inner] else inner.insides name) ++ rest.insides name

/-- Only blocks have this name, and none of them stands inside another. -/
def Separate (name : String) : Content → Prop
  | last _ => True
  | remark _ _ rest => rest.Separate name
  | unclosed _ own rest => own.text ≠ name ∧ rest.Separate name
  | leaf _ own _ rest => own.text ≠ name ∧ rest.Separate name
  | block _ own inner rest =>
      (if own.text = name then ¬inner.Mentions name else inner.Separate name) ∧
        rest.Separate name

/-! ## More spaces -/

section Prepend

variable (spaces : Spaces) (content : Content)

@[simp] theorem text_prepend (remarks : Bool) :
    (content.prepend spaces).text remarks = spaces.letters ++ content.text remarks := by
  cases content <;> simp [prepend, text, Spaces.append]

@[simp] theorem value?_prepend (name : String) :
    (content.prepend spaces).value? name = content.value? name := by
  cases content <;> rfl

@[simp] theorem blocks_prepend : (content.prepend spaces).blocks = content.blocks := by
  cases content <;> rfl

@[simp] theorem leaves_prepend : (content.prepend spaces).leaves = content.leaves := by
  cases content <;> rfl

end Prepend

/-! ## Values -/

theorem exists_value {name text : String} {content : Content}
    (stated : content.value? name = some text) : ∃ value : Value, text = value.text := by
  induction content with
  | last spaces => cases stated
  | remark spaces comment rest ih => exact ih stated
  | unclosed spaces own rest ih => exact ih stated
  | leaf spaces own value rest ih =>
      rw [value?] at stated
      split at stated
      · cases stated
        exact ⟨value, rfl⟩
      · exact ih stated
  | block spaces own inner rest innerIH ih => exact ih stated

/-! ## Removal -/

section Removal

variable {name : String} {content : Content}

@[simp] theorem value?_without (other : String) (content : Content) :
    (content.without name).value? other = content.value? other := by
  induction content with
  | last spaces => rfl
  | remark spaces comment rest ih => exact ih
  | unclosed spaces own rest ih => exact ih
  | leaf spaces own value rest ih => simp only [without, value?, ih]
  | block spaces own inner rest innerIH ih =>
      rw [without]
      split
      · rw [value?_prepend, ih, value?]
      · exact ih

theorem blocks_without (content : Content) :
    (content.without name).blocks =
      (content.blocks.filter fun block => block.1.text ≠ name).map fun block =>
        (block.1, block.2.without name) := by
  induction content with
  | last spaces => rfl
  | remark spaces comment rest ih => exact ih
  | unclosed spaces own rest ih => exact ih
  | leaf spaces own value rest ih => exact ih
  | block spaces own inner rest innerIH ih =>
      rw [without]
      split
      · rename_i same
        rw [blocks_prepend, ih, blocks, List.filter_cons_of_neg (by simp [same])]
      · rename_i apart
        rw [blocks, ih, blocks, List.filter_cons_of_pos (by simp [apart]), List.map_cons]

/-- Content that does not mention a name has nothing of that name to remove. -/
theorem without_of_not_mentions (absent : ¬content.Mentions name) :
    content.without name = content := by
  induction content with
  | last spaces => rfl
  | remark spaces comment rest ih => rw [without, ih absent]
  | unclosed spaces own rest ih => rw [without, ih (not_or.1 absent).2]
  | leaf spaces own value rest ih => rw [without, ih (not_or.1 absent).2]
  | block spaces own inner rest innerIH ih =>
      obtain ⟨apart, others⟩ := not_or.1 absent
      obtain ⟨inside, later⟩ := not_or.1 others
      rw [without, if_neg apart, innerIH inside, ih later]

theorem insides_of_not_mentions (absent : ¬content.Mentions name) :
    content.insides name = [] := by
  induction content with
  | last spaces => rfl
  | remark spaces comment rest ih => exact ih absent
  | unclosed spaces own rest ih => exact ih (not_or.1 absent).2
  | leaf spaces own value rest ih => exact ih (not_or.1 absent).2
  | block spaces own inner rest innerIH ih =>
      obtain ⟨apart, others⟩ := not_or.1 absent
      obtain ⟨inside, later⟩ := not_or.1 others
      rw [insides, if_neg apart, innerIH inside, ih later, List.append_nil]

theorem insides_eq_flatMap (content : Content) :
    content.insides name = content.blocks.flatMap fun block =>
      if block.1.text = name then [block.2] else block.2.insides name := by
  induction content with
  | last spaces => rfl
  | remark spaces comment rest ih => exact ih
  | unclosed spaces own rest ih => exact ih
  | leaf spaces own value rest ih => exact ih
  | block spaces own inner rest innerIH ih =>
      rw [insides, ih, blocks, List.flatMap_cons]

/-- Blocks whose name no other block mentions are those that stand in the content itself. -/
theorem insides_eq_blocksNamed
    (apart : ∀ block ∈ content.blocks, block.1.text ≠ name → ¬block.2.Mentions name) :
    content.insides name = content.blocksNamed name := by
  rw [insides_eq_flatMap, blocksNamed]
  generalize content.blocks = blocks at apart ⊢
  induction blocks with
  | nil => rfl
  | cons block rest ih =>
      have later := ih fun other member => apart other (List.mem_cons_of_mem block member)
      by_cases same : block.1.text = name
      · rw [List.flatMap_cons, if_pos same, later, List.filter_cons_of_pos (by simp [same])]
        rfl
      · have none := insides_of_not_mentions (apart block List.mem_cons_self same)
        rw [List.flatMap_cons, if_neg same, none, later,
          List.filter_cons_of_neg (by simp [same])]
        rfl

end Removal

/-! ## Mending -/

section Mending

variable (content : Content)

@[simp] theorem value?_mended (name : String) :
    content.mended.value? name = content.value? name := by
  induction content with
  | last spaces => rfl
  | remark spaces comment rest ih => exact ih
  | unclosed spaces own rest ih => simp only [mended, value?_prepend, ih, value?]
  | leaf spaces own value rest ih => simp only [mended, value?, ih]
  | block spaces own inner rest innerIH ih => exact ih

@[simp] theorem leaves_mended : content.mended.leaves = content.leaves := by
  induction content with
  | last spaces => rfl
  | remark spaces comment rest ih => exact ih
  | unclosed spaces own rest ih => simp only [mended, leaves_prepend, ih, leaves]
  | leaf spaces own value rest ih => simp only [mended, leaves, ih]
  | block spaces own inner rest innerIH ih => simp only [mended, leaves, innerIH, ih]

theorem blocks_mended :
    content.mended.blocks = content.blocks.map fun block => (block.1, block.2.mended) := by
  induction content with
  | last spaces => rfl
  | remark spaces comment rest ih => exact ih
  | unclosed spaces own rest ih => simp only [mended, blocks_prepend, ih, blocks]
  | leaf spaces own value rest ih => exact ih
  | block spaces own inner rest innerIH ih => simp only [mended, blocks, ih, List.map_cons]

theorem blocksNamed_mended (name : String) :
    content.mended.blocksNamed name = (content.blocksNamed name).map mended := by
  rw [blocksNamed, blocks_mended, List.filter_map, List.map_map, blocksNamed, List.map_map]
  rfl

theorem block?_mended (name : String) :
    content.mended.block? name = (content.block? name).map mended := by
  rw [block?, blocksNamed_mended, List.head?_map, block?]

end Mending

end Content
end ClassAtlas.Markup
