import ClassAtlas.Proofs.Markup.Lexeme

/-!
# Ampersands of lexemes

Of the parts from which a document is written few can hold an ampersand: text, the values of
attributes, remarks, sections without references, and the declaration.  A place in a text is
told by the text behind it, so that `'&' :: after <:+ text` says that `after` follows an
ampersand of `text`.  `Leaves pieces text rest` says that ahead of `rest` the ampersands of
`text` stand in certain pieces of it.  Stretches that are taken off one after another add up
(`Leaves.trans`), and each scanning function takes off such a stretch.
-/

namespace ClassAtlas.Markup

/-! ## Places -/

/-- Of two places in a text one is behind the other. -/
theorem suffix_or_suffix {text after rest : List Char} {mark : Char}
    (place : mark :: after <:+ text) (ending : rest <:+ text) :
    rest <:+ after ∨ mark :: after <:+ rest := by
  rcases List.suffix_or_suffix_of_suffix ending place with behind | ahead
  · rcases List.suffix_cons_iff.1 behind with rfl | behind
    · exact .inr List.suffix_rfl
    · exact .inl behind
  · exact .inr ahead

/-- Between two places in a text, the first of which is its start, ampersands stand only in
these pieces. -/
structure Leaves (pieces : List (List Char)) (text rest : List Char) : Prop where
  suffix : rest <:+ text
  inPiece : ∀ after, '&' :: after <:+ text → rest <:+ after →
    ∃ piece ∈ pieces, ∃ back, '&' :: back <:+ piece ∧ back <+: after

namespace Leaves

variable {pieces others : List (List Char)} {text middle rest : List Char}

theorem trans (first : Leaves pieces text middle) (second : Leaves others middle rest) :
    Leaves (pieces ++ others) text rest := by
  constructor
  · exact second.suffix.trans first.suffix
  · intro after place behind
    rcases suffix_or_suffix place first.suffix with isFirst | isSecond
    · obtain ⟨piece, member, inside⟩ := first.inPiece after place isFirst
      exact ⟨piece, List.mem_append_left others member, inside⟩
    · obtain ⟨piece, member, inside⟩ := second.inPiece after isSecond behind
      exact ⟨piece, List.mem_append_right pieces member, inside⟩

/-- A stretch without ampersands. -/
theorem of_not_mem {stretch : List Char} (absent : '&' ∉ stretch) (rest : List Char) :
    Leaves [] (stretch ++ rest) rest := by
  constructor
  · exact List.suffix_append stretch rest
  · rintro _ ⟨front, whole⟩ ⟨inner, rfl⟩
    have inside : front ++ '&' :: inner = stretch := by
      apply (List.append_left_inj rest).1
      simpa using whole
    exact absurd (inside ▸ List.mem_append_right front List.mem_cons_self) absent

/-- A stretch that is one piece. -/
theorem of_piece (piece rest : List Char) : Leaves [piece] (piece ++ rest) rest := by
  constructor
  · exact List.suffix_append piece rest
  · rintro _ ⟨front, whole⟩ ⟨inner, rfl⟩
    have inside : front ++ '&' :: inner = piece := by
      apply (List.append_left_inj rest).1
      simpa using whole
    exact ⟨piece, List.mem_singleton_self piece, inner, ⟨front, inside⟩,
      List.prefix_append inner rest⟩

theorem cons {character : Char} (other : character ≠ '&') (rest : List Char) :
    Leaves [] (character :: rest) rest := by
  have absent : '&' ∉ [character] := by simpa using other.symm
  exact of_not_mem absent rest

/-- Characters of a kind to which the ampersand does not belong. -/
theorem dropWhile {test : Char → Bool} (excluded : test '&' = false) (text : List Char) :
    Leaves [] text (text.dropWhile test) := by
  have absent : '&' ∉ text.takeWhile test := by
    intro member
    rw [List.mem_takeWhile_imp member] at excluded
    cases excluded
  have left := of_not_mem absent (text.dropWhile test)
  rwa [List.takeWhile_append_dropWhile] at left

theorem skipSpaces (text : List Char) : Leaves [] text (skipSpaces text) :=
  dropWhile (by decide) text

end Leaves

/-! ## Tags -/

theorem leaves_nameScan {text rest : List Char} {name : QualifiedName}
    (scanned : QualifiedName.scan text = some (name, rest)) : Leaves [] text rest := by
  have first : Leaves [] text (text.dropWhile isNamePart) := .dropWhile (by decide) text
  simp only [QualifiedName.scan] at scanned
  split at scanned
  · rename_i base shape
    simp only [Option.map_eq_some_iff, Prod.mk.injEq] at scanned
    obtain ⟨_, -, -, rfl⟩ := scanned
    rw [shape] at first
    exact (first.trans (.cons (by decide) base)).trans (.dropWhile (by decide) base)
  · simp only [Option.map_eq_some_iff, Prod.mk.injEq] at scanned
    obtain ⟨_, -, -, rfl⟩ := scanned
    exact first

theorem leaves_attributeScan {text rest : List Char} {written : Attribute}
    (scanned : Attribute.scan text = some (written, rest)) :
    Leaves [written.value] text rest := by
  simp only [Attribute.scan] at scanned
  split at scanned
  · cases scanned
  · rename_i name afterName isName
    have named := leaves_nameScan isName
    split at scanned
    · rename_i afterEquals isEquals
      have equals := Leaves.skipSpaces afterName
      rw [isEquals] at equals
      split at scanned
      · rename_i quote afterQuote isQuote
        have quoted := Leaves.skipSpaces afterEquals
        rw [isQuote] at quoted
        split at scanned
        · rename_i isMark
          split at scanned
          · rename_i closing after isClosing
            split at scanned
            · rename_i closes
              simp only [Option.some.injEq, Prod.mk.injEq] at scanned
              obtain ⟨rfl, rfl⟩ := scanned
              have noReference : quote ≠ '&' := by
                rintro rfl
                exact absurd isMark (by decide)
              have noMark : closing ≠ '&' := by rwa [beq_iff_eq.1 closes]
              have value := Leaves.of_piece
                (afterQuote.takeWhile fun character => character != quote && character != '<')
                (closing :: after)
              rw [← isClosing, List.takeWhile_append_dropWhile, isClosing] at value
              exact (((named.trans (equals.trans (.cons (by decide) afterEquals))).trans
                (quoted.trans (.cons noReference afterQuote))).trans value).trans
                  (.cons noMark after)
            · cases scanned
          · cases scanned
        · cases scanned
      · cases scanned
    · cases scanned

theorem leaves_scanAttributes {text rest : List Char} {attributes : List Attribute}
    {closed : Bool} (scanned : scanAttributes text = some (attributes, closed, rest)) :
    Leaves (attributes.map (·.value)) text rest := by
  fun_induction scanAttributes text generalizing attributes closed rest with
  | case1 text after shape =>
      cases scanned
      have spaces := Leaves.skipSpaces text
      rw [shape] at spaces
      have absent : '&' ∉ ['/', '>'] := by decide
      exact spaces.trans (.of_not_mem absent after)
  | case2 text after shape =>
      cases scanned
      have spaces := Leaves.skipSpaces text
      rw [shape] at spaces
      exact spaces.trans (.cons (by decide) after)
  | case3 text _ _ _ first after found ih =>
      simp only [Option.map_eq_some_iff, Prod.mk.injEq] at scanned
      obtain ⟨⟨others, last, final⟩, inner, rfl, rfl, rfl⟩ := scanned
      exact ((Leaves.skipSpaces text).trans (leaves_attributeScan found)).trans (ih inner)
  | case4 => cases scanned
  | case5 => cases scanned

/-! ## Tokens -/

namespace Token

/-- The token is taken as it stands: a remark, or a section without references. -/
def isUnread : Token → Bool
  | .verbatim _ | .remark => true
  | _ => false

/-- The parts of a token in which references are read. -/
def pieces : Token → List (List Char)
  | .opening _ attributes _ => attributes.map (·.value)
  | .text content => [content]
  | _ => []

theorem suffix_of_cut {mark text before after : List Char} (front : List Char)
    (found : Text.cut mark text = some (before, after)) : after <:+ front ++ text := by
  rw [Text.cut_eq_some found, ← List.append_assoc]
  exact List.suffix_append _ after

/-- A token ends at a place behind its start, and unless it is taken as it stands, ampersands are
only where references are read in it. -/
theorem suffix_of_scan {text rest : List Char} {token : Token}
    (scanned : scan text = some (token, rest)) :
    rest <:+ text ∧ (token.isUnread = true ∨ Leaves token.pieces text rest) := by
  have taken {token : Token} {text rest : List Char} (leaves : Leaves token.pieces text rest) :
      rest <:+ text ∧ (token.isUnread = true ∨ Leaves token.pieces text rest) :=
    ⟨leaves.suffix, .inr leaves⟩
  simp only [scan] at scanned
  split at scanned
  · cases scanned
  · rename_i comment
    simp only [scanComment] at scanned
    split at scanned
    · rename_i content after found
      split at scanned
      · cases scanned
      · cases scanned
        exact ⟨suffix_of_cut ['<', '!', '-', '-'] found, .inl rfl⟩
    · cases scanned
  · rename_i opened _
    simp only [Option.map_eq_some_iff, Option.bind_eq_some_iff, Prod.mk.injEq] at scanned
    obtain ⟨⟨content, after⟩, ⟨inner, isOpened, found⟩, rfl, rfl⟩ := scanned
    rw [Text.isPrefixOf?_eq_some isOpened]
    exact ⟨suffix_of_cut ('<' :: '!' :: "[CDATA[".toList) found, .inl rfl⟩
  · rename_i instruction
    split at scanned
    · cases scanned
    · simp only [Option.map_eq_some_iff, Prod.mk.injEq] at scanned
      obtain ⟨⟨content, after⟩, found, rfl, rfl⟩ := scanned
      exact ⟨suffix_of_cut ['<', '?'] found, .inl rfl⟩
  · rename_i inside
    split at scanned
    · rename_i name after named
      split at scanned
      · rename_i final shape
        cases scanned
        have spaces := Leaves.skipSpaces after
        rw [shape] at spaces
        have absent : '&' ∉ ['<', '/'] := by decide
        have mark : Leaves [] ('<' :: '/' :: inside) inside := .of_not_mem absent inside
        exact taken ((mark.trans (leaves_nameScan named)).trans
          (spaces.trans (.cons (by decide) rest)))
      · cases scanned
    · cases scanned
  · rename_i inside _ _ _ _
    split at scanned
    · rename_i name after named
      simp only [Option.map_eq_some_iff, Prod.mk.injEq] at scanned
      obtain ⟨⟨attributes, closed, final⟩, found, rfl, rfl⟩ := scanned
      have mark : Leaves [] ('<' :: inside) inside := .cons (by decide) inside
      exact taken ((mark.trans (leaves_nameScan named)).trans (leaves_scanAttributes found))
    · cases scanned
  · rename_i character after _ _ _ _ _
    split at scanned
    · cases scanned
    · cases scanned
      have content := Leaves.of_piece (character :: after.takeWhile (· != '<'))
        (after.dropWhile (· != '<'))
      rw [List.cons_append, List.takeWhile_append_dropWhile] at content
      exact taken content

end Token

/-! ## Declarations -/

theorem suffix_of_scanDeclared {word text rest : List Char}
    (declared : scanDeclared word text = some (some rest)) : rest <:+ text := by
  rw [scanDeclared] at declared
  split at declared
  · obtain ⟨⟨written, after⟩, scanned, rfl⟩ := Option.map_eq_some_iff.1 (Option.some.inj declared)
    exact (leaves_attributeScan scanned).suffix
  · cases declared

theorem suffix_of_afterDeclared {text rest : List Char} (ended : afterDeclared text = some rest) :
    rest <:+ text := by
  rw [afterDeclared] at ended
  split at ended
  · cases ended
    exact (Leaves.skipSpaces text).suffix
  · split at ended
    · cases ended
      exact List.suffix_rfl
    · cases ended

theorem suffix_of_skipDeclaration {text body : List Char}
    (skipped : skipDeclaration text = some body) : body <:+ text := by
  -- what follows the encoding, if there is one
  have standing {rest : List Char}
      (ending : ((scanDeclared "standalone".toList rest).getD (some rest)).bind
        (fun rest => ['?', '>'].isPrefixOf? (skipSpaces rest)) = some body) : body <:+ rest := by
    obtain ⟨after, alone, ended⟩ := Option.bind_eq_some_iff.1 ending
    have first : after <:+ rest := by
      cases declared : scanDeclared "standalone".toList rest with
      | none =>
          rw [declared] at alone
          cases alone
          exact List.suffix_rfl
      | some left =>
          rw [declared] at alone
          cases alone
          exact suffix_of_scanDeclared declared
    have last : body <:+ skipSpaces after := by
      rw [Text.isPrefixOf?_eq_some ended]
      exact List.suffix_append _ body
    exact (last.trans (Leaves.skipSpaces after).suffix).trans first
  simp only [skipDeclaration, bind, Option.bind_eq_some_iff] at skipped
  obtain ⟨_, version, afterVersion, rfl, rest, ended, skipped⟩ := skipped
  have toVersion : rest <:+ text :=
    (((suffix_of_afterDeclared ended).trans (suffix_of_scanDeclared version)).trans
      (Leaves.skipSpaces _).suffix).trans (List.drop_suffix _ text)
  split at skipped
  · rename_i afterEncoding encoding
    simp only [Option.bind_eq_some_iff] at skipped
    obtain ⟨left, ⟨after, rfl, tight⟩, skipped⟩ := skipped
    have toEncoding := (suffix_of_afterDeclared tight).trans (suffix_of_scanDeclared encoding)
    exact ((standing (Option.bind_eq_some_iff.2 skipped)).trans toEncoding).trans toVersion
  · exact (standing skipped).trans toVersion

end ClassAtlas.Markup
