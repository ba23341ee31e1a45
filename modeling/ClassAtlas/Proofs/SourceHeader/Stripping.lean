import ClassAtlas.Proofs.SourceHeader.Scanning

/-!
# Texts without their comments

`strip` takes the comments out of a text, recognised from left to right as the language has it: a
comment after two slashes ends with its line, and one after a slash and an asterisk ends at the
first `*/`, on whichever line.  A space is left in its place, and the line breaks in it.  Headers
have no literals, so quotation marks are characters like others.  What is left holds no comment
(`isCode_strip`), and each of its lines is what is left of a line (`splitOn_strip`).
-/

namespace ClassAtlas.SourceHeader

open Text (isBlank isBlankText)

/-- Where a reader of the language stands. -/
inductive Place where
  | code
  /-- In a comment that ends with its line. -/
  | remark
  /-- In a comment that ends at `*/`. -/
  | block
  deriving DecidableEq, Repr

/-- Where the reader stands on the next line. -/
def Place.next : Place → Place
  | .block => .block
  | .code | .remark => .code

/-- A character that ends a line. -/
def isBreak (character : Char) : Bool := character == '\n' || character == '\r'

/-- The text with a space in the place of each comment, and where the reader stands after it. -/
def strip : Place → List Char → List Char × Place
  | place, [] => ([], place)
  | .code, '/' :: '/' :: rest => (strip .remark rest).map (' ' :: ·) id
  | .code, '/' :: '*' :: rest => (strip .block rest).map (' ' :: ·) id
  | .code, character :: rest => (strip .code rest).map (character :: ·) id
  | .remark, character :: rest =>
      if isBreak character then (strip .code rest).map (character :: ·) id else strip .remark rest
  | .block, '*' :: '/' :: rest => strip .code rest
  | .block, character :: rest =>
      if isBreak character then (strip .block rest).map (character :: ·) id else strip .block rest

/-- The source text without its comments. -/
def withoutComments (source : String) : String :=
  String.ofList (strip .code source.toList).1

/-- What is left of each line. -/
def stripLines : Place → List (List Char) → List (List Char)
  | _, [] => []
  | place, line :: rest => (strip place line).1 :: stripLines (strip place line).2.next rest

section Strip

variable {character : Char} {front line text : List Char}

/-! ## Steps -/

/-- A character is kept where no comment begins. -/
theorem strip_code_cons (isCode : ∀ sign ∈ commentSigns, ¬['/', sign] <+: character :: text) :
    strip .code (character :: text) = (strip .code text).map (character :: ·) id := by
  have opens {sign : Char} {rest : List Char} (isSign : sign ∈ commentSigns)
      (same : character = '/') (next : text = sign :: rest) : False :=
    isCode sign isSign ⟨rest, by rw [same, next]; rfl⟩
  rw [strip]
  · intro rest same next
    exact opens (by decide) same next
  · intro rest same next
    exact opens (by decide) same next

/-- Only line breaks are kept where the comment does not end. -/
theorem strip_block_cons (goesOn : ¬['*', '/'] <+: character :: text) :
    strip .block (character :: text) =
      (strip .block text).map ([character].filter isBreak ++ ·) id := by
  rw [strip]
  · by_cases breaks : isBreak character = true
    · rw [if_pos breaks, List.filter_cons_of_pos breaks]
      rfl
    · rw [if_neg breaks, List.filter_cons_of_neg breaks]
      rfl
  · intro rest same next
    exact goesOn ⟨rest, by rw [same, next]; rfl⟩

/-- A mark of two characters at the start of a text does not reach beyond one more character. -/
theorem prefix_of_prefix_append {first second : Char}
    (start : [first, second] <+: character :: (front ++ text)) :
    [first, second] <+: character :: (front ++ text.take 1) := by
  obtain ⟨rest, whole⟩ := start
  cases front with
  | nil =>
      cases whole
      exact ⟨[], rfl⟩
  | cons next front =>
      cases whole
      exact ⟨front ++ text.take 1, rfl⟩

/-- What stands before the first comment is kept. -/
theorem strip_code_append (isCode : IsCode (front ++ text.take 1)) :
    strip .code (front ++ text) = (strip .code text).map (front ++ ·) id := by
  induction front with
  | nil => rfl
  | cons character front ih =>
      have later : IsCode (front ++ text.take 1) :=
        isCode.of_isInfix (List.suffix_cons character _).isInfix
      rw [List.cons_append, strip_code_cons, ih later]
      · rfl
      · intro sign isSign start
        exact isCode sign isSign (prefix_of_prefix_append start).isInfix

/-- The line breaks before the end of a block comment are kept. -/
theorem strip_block_append (goesOn : ¬['*', '/'] <:+: front ++ text.take 1) :
    strip .block (front ++ text) = (strip .block text).map (front.filter isBreak ++ ·) id := by
  induction front with
  | nil => rfl
  | cons character front ih =>
      rw [List.cons_append] at goesOn ⊢
      have later : ¬['*', '/'] <:+: front ++ text.take 1 :=
        fun occurs => goesOn (occurs.trans (List.suffix_cons character _).isInfix)
      rw [strip_block_cons, ih later]
      · refine Prod.ext ?_ rfl
        calc [character].filter isBreak ++ (front.filter isBreak ++ (strip .block text).1)
          _ = ([character] ++ front).filter isBreak ++ (strip .block text).1 := by
              rw [List.filter_append, List.append_assoc]
      · intro start
        exact goesOn (prefix_of_prefix_append start).isInfix

theorem strip_of_isCode (isCode : IsCode line) : strip .code line = (line, .code) := by
  have whole : strip .code (line ++ []) = _ :=
    strip_code_append (by rwa [List.take_nil, List.append_nil])
  rw [List.append_nil] at whole
  rw [whole, strip]
  exact Prod.ext (List.append_nil line) rfl

theorem strip_of_goesOn (goesOn : ¬['*', '/'] <:+: line) :
    strip .block line = (line.filter isBreak, .block) := by
  have whole : strip .block (line ++ []) = _ :=
    strip_block_append (by rwa [List.take_nil, List.append_nil])
  rw [List.append_nil] at whole
  rw [whole, strip]
  exact Prod.ext (List.append_nil _) rfl

/-- The character that follows is on the same line. -/
theorem exists_cons_of_append {sign : Char} {rest tail : List Char} (other : sign ≠ '\n')
    (whole : text ++ '\n' :: rest = sign :: tail) : ∃ more, text = sign :: more := by
  cases text with
  | nil => exact absurd (List.cons.inj whole).1.symm other
  | cons first more =>
      rw [List.cons_append] at whole
      exact ⟨more, by rw [(List.cons.inj whole).1]⟩

/-- A line ends where the next one begins, and with it a comment after two slashes. -/
theorem strip_append_lineFeed (place : Place) (line rest : List Char) :
    strip place (line ++ '\n' :: rest) =
      (strip (strip place line).2.next rest).map ((strip place line).1 ++ '\n' :: ·) id := by
  fun_induction strip place line with
  | case1 place => cases place <;> rfl
  | case2 more ih =>
      rw [List.cons_append, List.cons_append, strip, ih]
      rfl
  | case3 more ih =>
      rw [List.cons_append, List.cons_append, strip, ih]
      rfl
  | case4 character more noRemark noBlock ih =>
      rw [List.cons_append, strip, ih]
      · rfl
      · intro tail same next
        obtain ⟨others, shape⟩ := exists_cons_of_append (by decide) next
        exact noRemark others same shape
      · intro tail same next
        obtain ⟨others, shape⟩ := exists_cons_of_append (by decide) next
        exact noBlock others same shape
  | case5 character more breaks ih =>
      rw [List.cons_append, strip, if_pos breaks, ih]
      rfl
  | case6 character more goesOn ih => rw [List.cons_append, strip, if_neg goesOn, ih]
  | case7 more ih =>
      rw [List.cons_append, List.cons_append, strip, ih]
  | case8 character more noEnd breaks ih =>
      rw [List.cons_append, strip, if_pos breaks, ih]
      · rfl
      · intro tail same next
        obtain ⟨others, shape⟩ := exists_cons_of_append (by decide) next
        exact noEnd others same shape
  | case9 character more noEnd goesOn ih =>
      rw [List.cons_append, strip, if_neg goesOn, ih]
      intro tail same next
      obtain ⟨others, shape⟩ := exists_cons_of_append (by decide) next
      exact noEnd others same shape

/-- No character but the space comes in. -/
theorem mem_of_mem_strip {place : Place} (other : character ≠ ' ')
    (member : character ∈ (strip place text).1) : character ∈ text := by
  fun_induction strip place text with
  | case1 => exact member
  | case2 rest ih | case3 rest ih =>
      have inside := (List.mem_cons.1 member).resolve_left other
      exact List.mem_cons_of_mem _ (List.mem_cons_of_mem _ (ih inside))
  | case4 _ rest _ _ ih | case5 _ rest _ ih | case8 _ rest _ _ ih =>
      rcases List.mem_cons.1 member with rfl | inside
      · exact List.mem_cons_self
      · exact List.mem_cons_of_mem _ (ih inside)
  | case6 _ rest _ ih | case9 _ rest _ _ ih => exact List.mem_cons_of_mem _ (ih member)
  | case7 rest ih => exact List.mem_cons_of_mem _ (List.mem_cons_of_mem _ (ih member))

/-- The lines of what is left are what is left of the lines. -/
theorem splitOn_strip (place : Place) (text : List Char) :
    (strip place text).1.splitOn '\n' = stripLines place (text.splitOn '\n') := by
  have stays {place : Place} {line : List Char} (single : '\n' ∉ line) :
      '\n' ∉ (strip place line).1 :=
    fun member => single (mem_of_mem_strip (by decide) member)
  by_cases breaks : '\n' ∈ text
  · obtain ⟨line, rest, shape, single⟩ := List.eq_append_cons_of_mem breaks
    have shorter : rest.length < text.length := by
      rw [shape, List.length_append, List.length_cons]
      omega
    rw [shape, strip_append_lineFeed, List.splitOn_append_cons_self_of_not_mem single, stripLines,
      ← splitOn_strip _ rest]
    exact List.splitOn_append_cons_self_of_not_mem (stays single) _
  · rw [List.splitOn_eq_singleton breaks, List.splitOn_eq_singleton (stays breaks)]
    rfl
termination_by text.length

/-! ## What is left -/

/-- What is left begins with what the text begins with, or with the space in the place of a
comment. -/
theorem exists_cons_of_strip {sign : Char} {more : List Char} (other : sign ≠ ' ')
    (shape : (strip .code text).1 = sign :: more) : ∃ rest, text = sign :: rest := by
  generalize isPlace : Place.code = place at shape
  fun_cases strip place text with
  | case1 => cases shape
  | case2 rest | case3 rest => exact absurd (List.cons.inj shape).1.symm other
  | case4 character rest noRemark noBlock =>
      rw [strip] at shape
      · exact ⟨rest, by rw [(List.cons.inj shape).1]⟩
      · exact noRemark
      · exact noBlock
  | case5 | case6 | case7 | case8 | case9 => cases isPlace

/-- No comment is left. -/
theorem isCode_strip (place : Place) (text : List Char) : IsCode (strip place text).1 := by
  have step {character : Char} {rest : List Char} (isCode : IsCode rest)
      (other : ∀ sign ∈ commentSigns, ¬['/', sign] <+: character :: rest) :
      IsCode (character :: rest) := by
    intro sign isSign occurs
    rcases List.infix_cons_iff.1 occurs with start | inside
    · exact other sign isSign start
    · exact isCode sign isSign inside
  have space {character : Char} {rest : List Char} (isCode : IsCode rest)
      (other : character ≠ '/') : IsCode (character :: rest) := by
    apply step isCode
    intro sign _ start
    exact other (List.cons_prefix_cons.1 start).1.symm
  have noSlash {character : Char} (breaks : isBreak character = true) : character ≠ '/' := by
    rintro rfl
    cases breaks
  fun_induction strip place text with
  | case1 => exact (by decide : IsCode [])
  | case2 rest ih | case3 rest ih => exact space ih (by decide)
  | case4 character rest noRemark noBlock ih =>
      apply step ih
      intro sign isSign start
      obtain ⟨same, more, next⟩ := List.cons_prefix_cons.1 start
      have solid : sign ≠ ' ' := by
        rintro rfl
        exact absurd isSign (by decide)
      obtain ⟨tail, shape⟩ := exists_cons_of_strip solid next.symm
      rcases List.mem_pair.1 isSign with rfl | rfl
      · exact noRemark tail same.symm shape
      · exact noBlock tail same.symm shape
  | case5 character rest breaks ih | case8 character rest _ breaks ih =>
      exact space ih (noSlash breaks)
  | case6 character rest _ ih | case7 rest ih | case9 character rest _ _ ih => exact ih

end Strip

end ClassAtlas.SourceHeader
