import ClassAtlas.Proofs.Markup.Ampersand

/-!
# References of documents

An ampersand of a document begins a reference where it stands in text or in the value of an
attribute.  It may stand for itself, and is loose, in a remark, in a section without
references and in the declaration (`Node.IsLoose`).  In a document that is read there are no
other ampersands (`Node.refers_or_isLoose`).
-/

namespace ClassAtlas.Markup

/-! ## References -/

/-- Every ampersand of a piece begins a reference that is known. -/
def RefersOnly (piece : List Char) : Prop :=
  ∀ after, '&' :: after <:+ piece → (scanReference after).isSome = true

/-- The name of a reference that is known: that of a character, or its number. -/
def IsReferenceName (name : List Char) : Prop :=
  name.head? = some '#' ∨ name ∈ ["lt".toList, "gt".toList, "amp".toList, "quot".toList,
    "apos".toList]

theorem exists_of_scanNumber {base : Nat} {text rest : List Char}
    {character : Char} (scanned : scanNumber base text = some (character, rest)) :
    ∃ digits, text = digits ++ ';' :: rest ∧ '&' ∉ digits ∧ ';' ∉ digits := by
  have noDigit (other : Char) (excluded : digitValue? base other = none) :
      other ∉ text.takeWhile fun character => (digitValue? base character).isSome := by
    intro member
    have isDigit := List.mem_takeWhile_imp member
    rw [excluded] at isDigit
    cases isDigit
  simp only [scanNumber] at scanned
  split at scanned
  · rename_i after shape
    split at scanned
    · cases scanned
    · cases scanned
      refine ⟨_, ?_, noDigit '&' ?_, noDigit ';' ?_⟩
      · rw [← shape, List.takeWhile_append_dropWhile]
      · simp [digitValue?, Text.isAsciiDigit]
      · simp [digitValue?, Text.isAsciiDigit]
  · cases scanned

/-- What is read as a reference ends at the first semicolon. -/
theorem exists_of_scanReference {text rest : List Char} {character : Char}
    (scanned : scanReference text = some (character, rest)) :
    ∃ name, text = name ++ ';' :: rest ∧ '&' ∉ name ∧ ';' ∉ name ∧ IsReferenceName name := by
  simp only [scanReference] at scanned
  split at scanned
  · obtain ⟨digits, rfl, noMark, noEnd⟩ := exists_of_scanNumber scanned
    exact ⟨'#' :: 'x' :: digits, rfl, by simp [noMark], by simp [noEnd], .inl rfl⟩
  · obtain ⟨digits, rfl, noMark, noEnd⟩ := exists_of_scanNumber scanned
    exact ⟨'#' :: digits, rfl, by simp [noMark], by simp [noEnd], .inl rfl⟩
  · obtain ⟨⟨name, named⟩, member, found⟩ := List.exists_of_findSome?_eq_some scanned
    simp only [Option.map_eq_some_iff, Prod.mk.injEq] at found
    obtain ⟨after, isPrefix, rfl, rfl⟩ := found
    have each : ∀ entry ∈ namedReferences, entry.1.toList = entry.1.toList.dropLast ++ [';'] ∧
        '&' ∉ entry.1.toList.dropLast ∧ ';' ∉ entry.1.toList.dropLast ∧
        entry.1.toList.dropLast ∈ ["lt".toList, "gt".toList, "amp".toList, "quot".toList,
          "apos".toList] := by decide
    obtain ⟨ended, noMark, noEnd, isName⟩ := each _ member
    refine ⟨name.toList.dropLast, ?_, noMark, noEnd, .inr isName⟩
    rw [Text.isPrefixOf?_eq_some isPrefix, ended]
    simp

/-- No ampersand stands in a reference. -/
theorem RefersOnly.of_reference {text rest : List Char} {character : Char}
    (scanned : scanReference text = some (character, rest)) (known : RefersOnly rest) :
    RefersOnly ('&' :: text) := by
  obtain ⟨name, shape, noMark, -, -⟩ := exists_of_scanReference scanned
  have noReference : '&' ∉ name ++ [';'] := by simpa using noMark
  intro after place
  rcases List.suffix_cons_iff.1 place with whole | inside
  · cases whole
    rw [scanned]
    rfl
  · have split : text = (name ++ [';']) ++ rest := by simp [shape]
    rw [split] at inside
    rcases suffix_or_suffix inside (List.suffix_append _ rest) with inName | later
    · obtain ⟨piece, member, -⟩ := (Leaves.of_not_mem noReference rest).inPiece after inside inName
      cases member
    · exact known after later

theorem RefersOnly.cons {character : Char} {text : List Char} (other : character ≠ '&')
    (known : RefersOnly text) : RefersOnly (character :: text) := by
  intro after place
  rcases List.suffix_cons_iff.1 place with whole | inside
  · cases whole
    exact absurd rfl other
  · exact known after inside

theorem refersOnly_nil : RefersOnly [] := by
  intro after place
  cases List.suffix_nil.1 place

theorem refersOnly_of_contentOf_go {latest text : List Char} {asIs : Bool}
    (isContent : (contentOf.go latest asIs text).isSome = true) : RefersOnly text := by
  fun_induction contentOf.go latest asIs text with
  | case1 => exact refersOnly_nil
  | case2 latest asIs text character rest scanned ih => exact .of_reference scanned (ih isContent)
  | case3 => cases isContent
  | case4 latest asIs character rest other ih => exact .cons other (ih isContent)

theorem refersOnly_of_valueOf {text : List Char} (isValue : (valueOf text).isSome = true) :
    RefersOnly text := by
  fun_induction valueOf text with
  | case1 => exact refersOnly_nil
  | case2 text character rest scanned ih =>
      rw [Option.isSome_map] at isValue
      exact .of_reference scanned (ih isValue)
  | case3 => cases isValue
  | case4 rest ih =>
      rw [Option.isSome_map] at isValue
      exact .cons (by decide) (.cons (by decide) (ih isValue))
  | case5 character rest other _ ih =>
      rw [Option.isSome_map] at isValue
      exact .cons other (ih isValue)

/-! ## Trees -/

/-- Every ampersand in the pieces of a token begins a reference that is known. -/
def Token.Refers (token : Token) : Prop :=
  ∀ piece ∈ token.pieces, RefersOnly piece

theorem isSome_of_mapM {Item Result : Type} {read : Item → Option Result} {items : List Item}
    {results : List Result} (all : items.mapM read = some results) :
    ∀ item ∈ items, (read item).isSome = true := by
  induction items generalizing results with
  | nil => exact fun _ member => nomatch member
  | cons first items ih =>
      simp only [List.mapM_cons, bind, Option.bind_eq_some_iff] at all
      obtain ⟨result, isFirst, others, isOthers, -⟩ := all
      intro item member
      rcases List.mem_cons.1 member with rfl | member
      · rw [isFirst]
        rfl
      · exact ih isOthers item member

/-- The attributes of a start tag are read with their values. -/
theorem refers_of_enter {outer bindings : Bindings} {name : QualifiedName}
    {attributes : List Attribute} (closed : Bool)
    (entered : outer.enter name attributes = some bindings) :
    (Token.opening name attributes closed).Refers := by
  simp only [Bindings.enter, bind, Option.bind_eq_some_iff] at entered
  obtain ⟨named, isNamed, -⟩ := entered
  intro piece member
  obtain ⟨written, among, rfl⟩ := List.mem_map.1 member
  have isValue := isSome_of_mapM isNamed written among
  rw [Option.isSome_map] at isValue
  exact refersOnly_of_valueOf isValue

theorem refers_of_isAround {token : Token} (around : Node.isAround token = true) :
    token.Refers := by
  cases token with
  | text content =>
      intro piece member after place
      cases List.mem_singleton.1 member
      have space := List.all_eq_true.1 around '&' (place.mem List.mem_cons_self)
      exact absurd space (by decide)
  | remark => exact fun _ member => nomatch member
  | opening => cases around
  | closing => cases around
  | verbatim => cases around

/-- The tokens of an element that is read refer to what is known. -/
theorem refers_of_content? {element : Node.Open} {outer : List Node.Open}
    {tokens rest : List Token} {node : Node}
    (read : Node.content? element outer tokens = some (node, rest)) :
    ∃ front, tokens = front ++ rest ∧ ∀ token ∈ front, token.Refers := by
  have step {token : Token} {tokens : List Token} (refers : token.Refers)
      (later : ∃ front, tokens = front ++ rest ∧ ∀ token ∈ front, token.Refers) :
      ∃ front, token :: tokens = front ++ rest ∧ ∀ token ∈ front, token.Refers := by
    obtain ⟨front, rfl, others⟩ := later
    exact ⟨token :: front, rfl, List.forall_mem_cons.2 ⟨refers, others⟩⟩
  fun_induction Node.content? element outer tokens with
  | case1 => cases read
  | case2 element outer written others content found ih =>
      refine step ?_ (ih read)
      intro piece member
      cases List.mem_singleton.1 member
      have isContent : (contentOf.go [] false written).isSome = true := by
        rw [← contentOf, found]
        rfl
      exact refersOnly_of_contentOf_go isContent
  | case3 => cases read
  | case4 element outer written others ih => exact step (fun _ member => nomatch member) (ih read)
  | case5 element outer others ih => exact step (fun _ member => nomatch member) (ih read)
  | case6 => cases read
  | case7 element outer name attributes others bindings entered ih =>
      exact step (refers_of_enter true entered) (ih read)
  | case8 element outer name attributes closed others bindings entered unclosed ih =>
      exact step (refers_of_enter closed entered) (ih read)
  | case9 element name others same =>
      cases read
      exact ⟨[_], rfl, by simp [Token.Refers, Token.pieces]⟩
  | case10 element name others same parent outer ih =>
      exact step (fun _ member => nomatch member) (ih read)
  | case11 => cases read

theorem refers_of_ofTokens? {tokens : List Token} {node : Node}
    (read : Node.ofTokens? tokens = some node) : ∀ token ∈ tokens, token.Refers := by
  rw [← List.takeWhile_append_dropWhile (p := Node.isAround) (l := tokens)]
  have before : ∀ token ∈ tokens.takeWhile Node.isAround, token.Refers :=
    fun token member => refers_of_isAround (List.mem_takeWhile_imp member)
  rw [Node.ofTokens?] at read
  split at read
  · rename_i name attributes closed rest shape
    split at read
    · cases read
    · rename_i bindings entered
      simp only [Option.bind_eq_some_iff] at read
      obtain ⟨⟨root, after⟩, found, ended⟩ := read
      dsimp only at ended
      split at ended
      · rename_i around
        have behind : ∀ token ∈ after, token.Refers :=
          fun token member => refers_of_isAround (List.all_eq_true.1 around token member)
        have inside : ∀ token ∈ rest, token.Refers := by
          split at found
          · cases found
            exact behind
          · obtain ⟨front, rfl, refers⟩ := refers_of_content? found
            exact List.forall_mem_append.2 ⟨refers, behind⟩
        rw [shape]
        exact List.forall_mem_append.2
          ⟨before, List.forall_mem_cons.2 ⟨refers_of_enter closed entered, inside⟩⟩
      · cases ended
  · cases read

/-- An ampersand with this text behind it stands in a token that is taken as it stands. -/
inductive Token.IsLoose : List Char → List Char → Prop where
  | here {text rest after : List Char} {token : Token}
      (scanned : Token.scan text = some (token, rest)) (unread : token.isUnread = true)
      (place : '&' :: after <:+ text) (behind : rest <:+ after) : Token.IsLoose text after
  | later {text rest after : List Char} {token : Token}
      (scanned : Token.scan text = some (token, rest)) (loose : Token.IsLoose rest after) :
      Token.IsLoose text after

theorem Token.IsLoose.place {text after : List Char} (loose : Token.IsLoose text after) :
    '&' :: after <:+ text := by
  induction loose with
  | here _ _ place _ => exact place
  | later scanned _ ih => exact ih.trans (suffix_of_scan scanned).1

/-- An ampersand in the tokens of a document is loose or begins a reference. -/
theorem Token.refers_or_isLoose {text after : List Char} {tokens : List Token}
    (scanned : scanAll text = some tokens) (refers : ∀ token ∈ tokens, token.Refers)
    (place : '&' :: after <:+ text) :
    IsLoose text after ∨ ∃ back, back <+: after ∧ (scanReference back).isSome = true := by
  fun_induction scanAll text generalizing tokens with
  | case1 text empty =>
      rw [List.isEmpty_iff.1 empty] at place
      cases List.suffix_nil.1 place
  | case2 text nonempty token rest first ih =>
      obtain ⟨others, isOthers, rfl⟩ := Option.map_eq_some_iff.1 scanned
      obtain ⟨ofFirst, ofOthers⟩ := List.forall_mem_cons.1 refers
      obtain ⟨ending, isRead⟩ := suffix_of_scan first
      rcases suffix_or_suffix place ending with behind | later
      · rcases isRead with unread | leaves
        · exact .inl (.here first unread place behind)
        · obtain ⟨piece, member, back, inPiece, start⟩ := leaves.inPiece after place behind
          exact .inr ⟨back, start, ofFirst piece member back inPiece⟩
      · rcases ih isOthers ofOthers later with loose | reference
        · exact .inl (.later first loose)
        · exact .inr reference
  | case3 => cases scanned

/-! ## Documents -/

namespace Node

/-- The text of a document behind its byte order mark and its declaration. -/
def body? (text : List Char) : Option (List Char) :=
  let text := Text.withoutStart ['\uFEFF'] text
  if declarationMark.isPrefixOf text then skipDeclaration text else some text

theorem ofText?_eq (text : List Char) :
    ofText? text =
      if text.all isAllowed then ((body? text).bind Token.scanAll).bind ofTokens? else none := by
  rw [ofText?, body?]
  cases text.all isAllowed with
  | false => rfl
  | true =>
      simp only [Bool.not_true, Bool.false_eq_true, if_false, bind, if_true, Option.bind_assoc]
      split <;> rfl

/-- An ampersand with this text behind it is not one that has to begin a reference: it stands
in the declaration, in a remark or in a section without references. -/
inductive IsLoose (text : List Char) : List Char → Prop where
  | inDeclaration {body after : List Char} (isBody : body? text = some body)
      (place : '&' :: after <:+ text) (before : body <:+ after) : IsLoose text after
  | inBody {body after : List Char} (isBody : body? text = some body)
      (loose : Token.IsLoose body after) : IsLoose text after

theorem suffix_of_body? {text body : List Char} (isBody : body? text = some body) :
    body <:+ text := by
  have unmarked : Text.withoutStart ['\uFEFF'] text <:+ text := by
    rw [Text.withoutStart]
    cases marked : ['\uFEFF'].isPrefixOf? text with
    | none => exact List.suffix_rfl
    | some rest =>
        rw [Text.isPrefixOf?_eq_some marked]
        exact List.suffix_append _ rest
  rw [body?] at isBody
  split at isBody
  · exact (suffix_of_skipDeclaration isBody).trans unmarked
  · cases isBody
    exact unmarked

theorem IsLoose.place {text after : List Char} (loose : IsLoose text after) :
    '&' :: after <:+ text := by
  cases loose with
  | inDeclaration _ place _ => exact place
  | inBody isBody loose => exact loose.place.trans (suffix_of_body? isBody)

/-- An ampersand of a document that is read is loose or begins a reference. -/
theorem refers_or_isLoose {text after : List Char} {document : Node}
    (read : ofText? text = some document) (place : '&' :: after <:+ text) :
    IsLoose text after ∨ ∃ back, back <+: after ∧ (scanReference back).isSome = true := by
  rw [ofText?_eq] at read
  split at read
  · simp only [Option.bind_eq_some_iff] at read
    obtain ⟨tokens, ⟨body, isBody, scanned⟩, isTree⟩ := read
    rcases suffix_or_suffix place (suffix_of_body? isBody) with before | later
    · exact .inl (.inDeclaration isBody place before)
    · rcases Token.refers_or_isLoose scanned (refers_of_ofTokens? isTree) later with
        loose | reference
      · exact .inl (.inBody isBody loose)
      · exact .inr reference
  · cases read

end Node
end ClassAtlas.Markup
