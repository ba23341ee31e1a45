import ClassAtlas.Proofs.Markup.Content

/-!
# Reading plain content

A document of plain content is read as the tree that it writes down exactly when it has
no unclosed tag.  Closed content is read part by part, in step with the parts of the
content; an unclosed tag leaves more start tags than end tags, and no document with such
a balance is read at all.
-/

namespace ClassAtlas.Markup

namespace Content

/-! ## Tokens -/

/-- The tokens of the content. -/
def tokens : Content → List Token
  | last spaces => spaces.tokens
  | remark spaces _ rest => spaces.tokens ++ .remark :: rest.tokens
  | unclosed spaces name rest =>
      spaces.tokens ++ .opening name.qualified [] false :: rest.tokens
  | leaf spaces name value rest =>
      spaces.tokens ++ .opening name.qualified [] false :: .text value.letters ::
        .closing name.qualified :: rest.tokens
  | block spaces name inner rest =>
      spaces.tokens ++ .opening name.qualified [] false :: (inner.tokens ++
        .closing name.qualified :: rest.tokens)

theorem scanAll_text (content : Content) {rest : List Char} (ends : AtTag rest) :
    Token.scanAll (content.text true ++ rest) =
      (Token.scanAll rest).map (content.tokens ++ ·) := by
  induction content generalizing rest with
  | last spaces => exact spaces.scanAll_append ends
  | remark spaces comment others ih =>
      simp only [text, if_true, List.append_assoc]
      rw [spaces.scanAll_append (comment.atTag_text _), scanAll_of_scan (scan_comment comment _),
        ih ends]
      simp [tokens, Function.comp_def]
  | unclosed spaces name others ih =>
      simp only [text, List.append_assoc]
      rw [spaces.scanAll_append (name.atTag_openingTag _),
        scanAll_of_scan (name.scan_openingTag _), ih ends]
      simp [tokens, Function.comp_def]
  | leaf spaces name value others ih =>
      simp only [text, List.append_assoc]
      rw [spaces.scanAll_append (name.atTag_openingTag _),
        scanAll_of_scan (name.scan_openingTag _),
        scanAll_of_scan (value.scan_letters (name.atTag_closingTag _)),
        scanAll_of_scan (name.scan_closingTag _), ih ends]
      simp [tokens, Function.comp_def]
  | block spaces name inner others innerIH ih =>
      simp only [text, List.append_assoc]
      rw [spaces.scanAll_append (name.atTag_openingTag _),
        scanAll_of_scan (name.scan_openingTag _), innerIH (name.atTag_closingTag _),
        scanAll_of_scan (name.scan_closingTag _), ih ends]
      simp [tokens, Function.comp_def]

end Content

/-! ## Text content -/

theorem pushWritten_plain {latest : List Char} {character : Char} (last : Bool)
    (before : '\r' ∉ latest) (plain : character ≠ '\r') :
    pushWritten latest character last = character :: latest := by
  cases latest with
  | nil => simp [pushWritten, plain]
  | cons first earlier =>
      have other : first ≠ '\r' := fun equal => before (equal ▸ List.mem_cons_self)
      simp [pushWritten, plain, other]

theorem contentOf_go_plain {latest text : List Char} (before : '\r' ∉ latest)
    (noReference : '&' ∉ text) (noReturn : '\r' ∉ text) :
    contentOf.go latest false text = some (latest.reverse ++ text) := by
  induction text generalizing latest with
  | nil => simp [contentOf.go]
  | cons character rest ih =>
      rw [List.mem_cons, not_or] at noReference noReturn
      have pushed := pushWritten_plain rest.isEmpty before (Ne.symm noReturn.1)
      rw [contentOf.go]
      · simp only [Bool.false_eq_true, if_false, pushed]
        rw [ih (by simp [before, noReturn.1]) noReference.2 noReturn.2]
        simp
      · exact fun equal => noReference.1 equal.symm

/-- Text without references and line ends stands for itself. -/
theorem Value.contentOf_letters (value : Value) :
    contentOf value.letters = some value.letters :=
  contentOf_go_plain (by simp) (not_mem_letters (by decide)) (not_mem_letters (by decide))

theorem isSome_contentOf_go {latest text : List Char} (noReference : '&' ∉ text) :
    (contentOf.go latest false text).isSome := by
  induction text generalizing latest with
  | nil => simp [contentOf.go]
  | cons character rest ih =>
      rw [List.mem_cons, not_or] at noReference
      rw [contentOf.go]
      · exact ih noReference.2
      · exact fun equal => noReference.1 equal.symm

/-- The text for which spaces stand, as a node unless there are none. -/
def Spaces.nodes (spaces : Spaces) : List Node :=
  if spaces.letters = [] then []
  else [.text (String.ofList ((contentOf spaces.letters).getD []))]

theorem Spaces.contentOf_letters (spaces : Spaces) :
    contentOf spaces.letters = some ((contentOf spaces.letters).getD []) := by
  have noReference : '&' ∉ spaces.letters := not_mem_letters (by decide)
  have present : (contentOf spaces.letters).isSome := isSome_contentOf_go noReference
  obtain ⟨content, found⟩ := Option.isSome_iff_exists.1 present
  rw [found, Option.getD_some]

/-! ## Trees -/

namespace Content

/-- The nodes for which the content stands when it has no unclosed tag. -/
def nodes : Content → List Node
  | last spaces => spaces.nodes
  | remark spaces _ rest => spaces.nodes ++ .remark :: rest.nodes
  | unclosed spaces _ rest => spaces.nodes ++ rest.nodes
  | leaf spaces name value rest =>
      spaces.nodes ++ .element name.text [.text value.text] :: rest.nodes
  | block spaces name inner rest =>
      spaces.nodes ++ .element name.text inner.nodes :: rest.nodes

end Content

/-- The latest child of an open element is not text, so that text begins a new child. -/
def Node.Open.Fresh (element : Node.Open) : Prop :=
  ∀ content earlier, element.latest ≠ .text content :: earlier

/-- The open element after more children. -/
def Node.Open.addAll (element : Node.Open) (nodes : List Node) : Node.Open :=
  { element with latest := nodes.reverse ++ element.latest }

theorem enter_plain (name : Name) : Bindings.enter [] name.qualified [] = some [] := by
  simp [Bindings.enter, Name.qualified, Bindings.isBound]

section Reading

variable {element : Node.Open}

theorem addAll_addAll (element : Node.Open) (first second : List Node) :
    (element.addAll first).addAll second = element.addAll (first ++ second) := by
  simp [Node.Open.addAll]

theorem add_eq_addAll (element : Node.Open) (nodes : List Node) (node : Node) :
    (element.addAll nodes).add node = element.addAll (nodes ++ [node]) := by
  simp [Node.Open.addAll, Node.Open.add]

theorem fresh_addAll (element : Node.Open) (nodes : List Node) {node : Node}
    (apart : ∀ content, node ≠ .text content) : (element.addAll (nodes ++ [node])).Fresh := by
  intro content earlier equal
  simp only [Node.Open.addAll, List.reverse_append, List.reverse_singleton,
    List.cons_append, List.cons.injEq] at equal
  exact apart content equal.1

theorem Fresh.addText (fresh : element.Fresh) (content : List Char) :
    element.addText content = element.addAll [.text (String.ofList content)] := by
  rw [Node.Open.addText]
  split
  · rename_i before earlier shape
    exact absurd shape (fresh before earlier)
  · rfl

theorem content?_spaces (spaces : Spaces) (fresh : element.Fresh) (outer : List Node.Open)
    (rest : List Token) :
    Node.content? element outer (spaces.tokens ++ rest) =
      Node.content? (element.addAll spaces.nodes) outer rest := by
  by_cases none : spaces.letters = []
  · simp [Spaces.tokens, Spaces.nodes, none, Node.Open.addAll]
  · simp only [Spaces.tokens, Spaces.nodes, if_neg none, List.singleton_append, Node.content?]
    rw [spaces.contentOf_letters]
    simp only [Fresh.addText fresh, Option.getD_some]

theorem content?_opening (name : Name) (bare : element.bindings = [])
    (outer : List Node.Open) (rest : List Token) :
    Node.content? element outer (.opening name.qualified [] false :: rest) =
      Node.content? ⟨name.qualified, [], []⟩ (element :: outer) rest := by
  rw [Node.content?, bare, enter_plain]
  rfl

theorem content?_closing (name : Name) (bindings : Bindings) (latest : List Node)
    (outer : List Node.Open) (rest : List Token) :
    Node.content? ⟨name.qualified, bindings, latest⟩ (element :: outer)
        (.closing name.qualified :: rest) =
      Node.content? (element.add (.element name.text latest.reverse)) outer rest := by
  simp [Node.content?, Node.Open.close, Name.qualified]

/-- Content without unclosed tags is read as its nodes. -/
theorem content?_tokens (content : Content) (closed : content.unclosedCount = 0)
    (fresh : element.Fresh) (bare : element.bindings = []) (outer : List Node.Open)
    (rest : List Token) :
    Node.content? element outer (content.tokens ++ rest) =
      Node.content? (element.addAll content.nodes) outer rest := by
  induction content generalizing element outer rest with
  | last spaces => exact content?_spaces spaces fresh outer rest
  | remark spaces comment others ih =>
      simp only [Content.tokens, Content.nodes, List.append_assoc, List.cons_append]
      rw [content?_spaces spaces fresh, Node.content?, add_eq_addAll,
        ih closed (fresh_addAll _ _ (by simp)) bare, addAll_addAll]
      simp
  | unclosed spaces name others ih => simp [Content.unclosedCount] at closed
  | leaf spaces name value others ih =>
      have entered : (element.addAll spaces.nodes).bindings = [] := bare
      simp only [Content.tokens, Content.nodes, List.append_assoc, List.cons_append]
      rw [content?_spaces spaces fresh, content?_opening name entered, Node.content?,
        value.contentOf_letters]
      simp only [Node.Open.addText, Node.Open.add]
      rw [content?_closing, add_eq_addAll, List.reverse_singleton,
        ih closed (fresh_addAll _ _ (by simp)) bare, addAll_addAll]
      simp [Value.text]
  | block spaces name inner others innerIH ih =>
      simp only [Content.unclosedCount, Nat.add_eq_zero_iff] at closed
      have begun : Node.Open.Fresh ⟨name.qualified, [], []⟩ := by simp [Node.Open.Fresh]
      have entered : (element.addAll spaces.nodes).bindings = [] := bare
      simp only [Content.tokens, Content.nodes, List.append_assoc, List.cons_append]
      rw [content?_spaces spaces fresh, content?_opening name entered,
        innerIH closed.1 begun rfl, Node.Open.addAll, content?_closing, add_eq_addAll,
        List.append_nil, List.reverse_reverse,
        ih closed.2 (fresh_addAll _ _ (by simp)) bare, addAll_addAll]
      simp

end Reading

/-! ## Balance -/

/-- The number of start tags less the number of end tags. -/
def balance : List Token → Int
  | [] => 0
  | .opening _ _ closed :: rest => (if closed then 0 else 1) + balance rest
  | .closing _ :: rest => balance rest - 1
  | .text _ :: rest | .verbatim _ :: rest | .remark :: rest => balance rest

theorem balance_append (left right : List Token) :
    balance (left ++ right) = balance left + balance right := by
  induction left with
  | nil => simp [balance]
  | cons token rest ih =>
      cases token <;> simp only [List.cons_append, balance, ih] <;> omega

theorem balance_spaces (spaces : Spaces) : balance spaces.tokens = 0 := by
  rw [Spaces.tokens]
  split <;> rfl

theorem balance_tokens (content : Content) :
    balance content.tokens = content.unclosedCount := by
  induction content with
  | last spaces => exact balance_spaces spaces
  | remark spaces comment rest ih =>
      simp [Content.tokens, balance_append, balance_spaces, balance, ih, Content.unclosedCount]
  | unclosed spaces name rest ih =>
      simp [Content.tokens, balance_append, balance_spaces, balance, ih, Content.unclosedCount]
      omega
  | leaf spaces name value rest ih =>
      simp [Content.tokens, balance_append, balance_spaces, balance, ih, Content.unclosedCount]
  | block spaces name inner rest innerIH ih =>
      simp [Content.tokens, balance_append, balance_spaces, balance, innerIH, ih,
        Content.unclosedCount]
      omega

/-- Reading the content of open elements takes one end tag more for each of them. -/
theorem balance_of_content? {element : Node.Open} {outer : List Node.Open}
    {tokens rest : List Token} {node : Node}
    (read : Node.content? element outer tokens = some (node, rest)) :
    balance tokens + outer.length + 1 = balance rest := by
  fun_induction Node.content? element outer tokens with
  | case1 => cases read
  | case2 element outer written others content found ih => exact ih read
  | case3 => cases read
  | case4 element outer written others ih => exact ih read
  | case5 element outer others ih => exact ih read
  | case6 => cases read
  | case7 element outer name attributes others bindings entered ih =>
      have inside := ih read
      simp only [balance, if_true]
      omega
  | case8 element outer name attributes closed others bindings entered unclosed ih =>
      have inside := ih read
      rw [List.length_cons] at inside
      simp only [balance, if_neg unclosed]
      omega
  | case9 element name others same =>
      cases read
      simp [balance]
  | case10 element name others same parent outer ih =>
      have inside := ih read
      rw [List.length_cons]
      simp only [balance]
      omega
  | case11 => cases read

theorem balance_cons_isAround {token : Token} (around : Node.isAround token = true)
    (rest : List Token) : balance (token :: rest) = balance rest := by
  cases token with
  | opening => cases around
  | closing => cases around
  | text => rfl
  | verbatim => cases around
  | remark => rfl

theorem balance_around {tokens : List Token} (around : tokens.all Node.isAround = true) :
    balance tokens = 0 := by
  induction tokens with
  | nil => rfl
  | cons token rest ih =>
      rw [List.all_cons, Bool.and_eq_true] at around
      rw [balance_cons_isAround around.1, ih around.2]

theorem balance_dropWhile (tokens : List Token) :
    balance (tokens.dropWhile Node.isAround) = balance tokens := by
  induction tokens with
  | nil => rfl
  | cons token rest ih =>
      rw [List.dropWhile_cons]
      split
      · rename_i around
        rw [ih, balance_cons_isAround around]
      · rfl

/-- A document has as many start tags as end tags. -/
theorem balance_of_ofTokens? {tokens : List Token} {node : Node}
    (read : Node.ofTokens? tokens = some node) : balance tokens = 0 := by
  rw [← balance_dropWhile]
  rw [Node.ofTokens?] at read
  split at read
  · rename_i name attributes closed rest shape
    rw [shape]
    split at read
    · cases read
    · rename_i bindings entered
      simp only [Option.bind_eq_some_iff] at read
      obtain ⟨⟨root, after⟩, found, ended⟩ := read
      dsimp only at ended
      split at ended
      · rename_i around
        have rest' := balance_around around
        split at found
        · rename_i single
          cases found
          simp [balance, single, rest']
        · rename_i double
          have inside := balance_of_content? found
          simp only [balance, if_neg double]
          simp only [List.length_nil] at inside
          omega
      · cases ended
  · cases read

/-! ## Documents -/

namespace Content

theorem scanAll_document (name : Name) (content : Content) :
    Token.scanAll (content.document name) =
      some (.opening name.qualified [] false ::
        (content.tokens ++ [.closing name.qualified])) := by
  have ended : Token.scanAll name.closingTag = some [.closing name.qualified] := by
    have scanned := name.scan_closingTag []
    rw [List.append_nil] at scanned
    rw [scanAll_of_scan scanned, Token.scanAll]
    rfl
  have tail := content.scanAll_text (name.atTag_closingTag [])
  rw [List.append_nil, ended] at tail
  rw [document, scanAll_of_scan (name.scan_openingTag _), tail]
  rfl

theorem ofTokens?_document (name : Name) (content : Content) :
    Node.ofTokens?
        (.opening name.qualified [] false :: (content.tokens ++ [.closing name.qualified])) =
      if content.unclosedCount = 0 then some (.element name.text content.nodes) else none := by
  split
  · rename_i closed
    have begun : Node.Open.Fresh ⟨name.qualified, [], []⟩ := by simp [Node.Open.Fresh]
    rw [Node.ofTokens?, List.dropWhile_cons_of_neg (by simp [Node.isAround])]
    simp only [enter_plain, Bool.false_eq_true, if_false]
    rw [content?_tokens content closed begun rfl]
    simp [Node.content?, Node.Open.addAll, Node.Open.close, Name.qualified]
  · rename_i unclosed
    cases read : Node.ofTokens?
        (.opening name.qualified [] false :: (content.tokens ++ [.closing name.qualified])) with
    | none => rfl
    | some node =>
        have even := balance_of_ofTokens? read
        simp [balance, balance_append, balance_tokens] at even
        exact absurd even unclosed

theorem clear_text (content : Content) : (content.text true).all isClear = true := by
  induction content with
  | last spaces => exact spaces.clear
  | remark spaces comment rest ih =>
      simp [text, spaces.clear, comment.clear_text, ih]
  | unclosed spaces name rest ih =>
      simp [text, spaces.clear, name.clear_openingTag, ih]
  | leaf spaces name value rest ih =>
      simp [text, spaces.clear, name.clear_openingTag, value.clear, name.clear_closingTag, ih]
  | block spaces name inner rest innerIH ih =>
      simp [text, spaces.clear, name.clear_openingTag, innerIH, name.clear_closingTag, ih]

theorem isClear_of_mem_document {name : Name} {content : Content} {character : Char}
    (member : character ∈ content.document name) : isClear character = true := by
  have clear : (content.document name).all isClear = true := by
    simp [document, name.clear_openingTag, name.clear_closingTag, content.clear_text]
  exact List.all_eq_true.1 clear character member

/-- A document of plain content is read exactly when all its tags are closed. -/
theorem ofText?_document (name : Name) (content : Content) :
    Node.ofText? (content.document name) =
      if content.unclosedCount = 0 then some (.element name.text content.nodes) else none := by
  obtain ⟨first, others, letters, start⟩ := name.exists_cons
  have noInstruction : first ≠ '?' := isNameStart_ne start (by decide)
  have allowed : (content.document name).all isAllowed = true :=
    List.all_eq_true.2 fun _ member => isAllowed_of_isClear (isClear_of_mem_document member)
  have noMark : Text.withoutStart ['\uFEFF'] (content.document name) = content.document name := by
    rfl
  have noDeclaration : declarationMark.isPrefixOf (content.document name) = false := by
    have mark : declarationMark = '<' :: '?' :: "xml ".toList := by decide
    rw [document, Name.openingTag, letters, mark]
    simp [List.isPrefixOf, Ne.symm noInstruction]
  rw [Node.ofText?]
  simp only [allowed, Bool.not_true, Bool.false_eq_true, if_false, noMark, noDeclaration]
  simp [scanAll_document, ofTokens?_document]

end Content
end ClassAtlas.Markup
