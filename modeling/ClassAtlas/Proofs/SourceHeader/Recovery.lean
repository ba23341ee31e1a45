import ClassAtlas.Proofs.SourceHeader.Scanning

/-!
# Recovery of headers

Two readers go over the same lines of a header.  The one that looks for the package finds it in
the statement that declares it and nowhere else, and the one that looks for imports finds all
targets of a line in order (`PackageStatement.packageIn?_text`,
`ImportStatement.filterMap_importIn?_line`).  Since each item of a layout is read on its own
(`statementLines_item`), the header of a source file is what its layout declares
(`ofSource_layout`).
-/

namespace ClassAtlas.SourceHeader

open Text (trim trimStart trimEnd isBlank IsSolid dropReturn)

/-! ## Reading statements -/

/-- A word is taken off with a blank after it. -/
theorem afterWord?_append (word : List Char) (space : Space) (rest : List Char) :
    afterWord? word (word ++ (space.text ++ rest)) = some (space.text ++ rest) := by
  have found : word.isPrefixOf? (word ++ (space.text ++ rest)) = some (space.text ++ rest) :=
    Text.isPrefixOf?_eq_some_iff.2 rfl
  obtain ⟨blank, blanks, shape⟩ := List.exists_cons_of_ne_nil space.nonempty
  have isBlank := space.atBlank_append rest
  rw [shape, List.cons_append] at isBlank
  rw [afterWord?, found, Option.filter_some, if_pos]
  rw [shape]
  exact isBlank blank rfl

/-- A word is not taken off where no blank comes after it. -/
theorem afterWord?_of_solid (word : List Char) {text : List Char} (solid : IsSolid text) :
    afterWord? word text = none := by
  rw [afterWord?, Option.filter_eq_none_iff]
  intro rest found
  rw [Text.isPrefixOf?_eq_some_iff] at found
  cases rest with
  | nil => simp
  | cons character rest =>
      have member : character ∈ text := found ▸ by simp
      simp [solid character member]

theorem afterWord?_of_ne {first other : Char} (ne : first ≠ other) (word text : List Char) :
    afterWord? (first :: word) (other :: text) = none := by
  simp [afterWord?, List.isPrefixOf?, ne]

/-- No statement that imports declares a package. -/
theorem packageIn?_importWord (text : List Char) : packageIn? (importWord ++ text) = none := by
  have letters : "package".toList = ['p', 'a', 'c', 'k', 'a', 'g', 'e'] := by decide
  rw [packageIn?, letters]
  exact congrArg (Option.bind · _) (afterWord?_of_ne (by decide) _ _)

/-- No statement that declares a package imports. -/
theorem importIn?_packageWord (text : List Char) : importIn? (packageWord ++ text) = none := by
  have letters : "import".toList = ['i', 'm', 'p', 'o', 'r', 't'] := by decide
  rw [importIn?, isPlain_packageWord.trim_append, letters]
  exact congrArg (Option.bind · _) (afterWord?_of_ne (by decide) _ _)

namespace PackageStatement

variable (statement : PackageStatement)

theorem trim_append_text (indentation : Blanks) :
    trim (indentation.text ++ statement.text) = statement.text := by
  have start : trimStart statement.text = statement.text := by
    rw [text, body, List.append_assoc]
    exact isPlain_packageWord.trimStart_append _
  rw [Text.trim_of_blank_append indentation.isBlank, trim, start, text]
  exact Text.trimEnd_append_solid (by decide) _ []

/-- The package is what stands between the first word and the semicolon. -/
theorem packageIn?_text : packageIn? statement.text = some statement.name.text := by
  have plain := statement.name.isPlain
  have afterWord : afterWord? "package".toList statement.text =
      some (statement.space.text ++ (statement.name.text ++ (statement.gap.text ++ [';']))) := by
    simp only [text, body, List.append_assoc]
    exact afterWord?_append packageWord statement.space _
  have trimmed :
      trim (statement.space.text ++ (statement.name.text ++ (statement.gap.text ++ [';']))) =
        statement.name.text ++ statement.gap.text ++ [';'] := by
    rw [Text.trim_of_blank_append statement.space.isBlank, trim, plain.trimStart_append,
      ← List.append_assoc]
    exact Text.trimEnd_append_solid (by decide) _ []
  have absent : ';' ∉ statement.name.text ++ statement.gap.text := by
    rw [List.mem_append, not_or]
    exact ⟨plain.semicolon, isForeign_semicolon.notInBlanks _⟩
  have nonempty : statement.name.text.isEmpty = false := by simp [plain.nonempty]
  rw [packageIn?, afterWord]
  simp only [Option.bind_eq_bind, Option.bind_some, trimmed, Text.dropEnd_append absent,
    Text.trim_append_of_blank statement.gap.isBlank, plain.trim_eq, nonempty,
    Bool.false_eq_true, if_false]

theorem filterMap_importIn?_text : (statement.text.splitOn ';').filterMap importIn? = [] := by
  have none : importIn? statement.body = none := importIn?_packageWord _
  have absent := statement.not_mem_body isForeign_semicolon
  rw [text, List.splitOn_append_cons_self_of_not_mem absent, List.filterMap_cons_none none]
  rfl

end PackageStatement

namespace ImportStatement

variable (statement : ImportStatement) (statements : List ImportStatement)

theorem trim_body : trim statement.body = importWord ++ (statement.space.text ++
    (staticText statement.static ++ statement.target.text)) := by
  have regrouped : statement.body = statement.indentation.text ++ (importWord ++
      (statement.space.text ++ staticText statement.static) ++ statement.target.text ++
        statement.gap.text) := by
    simp only [body, List.append_assoc]
  rw [regrouped, Text.trim_of_blank_append statement.indentation.isBlank,
    Text.trim_append_of_blank statement.gap.isBlank, List.append_assoc, trim,
    isPlain_importWord.trimStart_append, ← List.append_assoc,
    statement.target.isPlain.trimEnd_append]
  simp only [List.append_assoc]

theorem trimStart_afterImport :
    trimStart (statement.space.text ++ (staticText statement.static ++ statement.target.text)) =
      staticText statement.static ++ statement.target.text := by
  rw [Text.trimStart_append_of_blank statement.space.isBlank]
  cases statement.static with
  | none =>
      have kept := statement.target.isPlain.trimStart_append []
      rwa [List.append_nil] at kept
  | some space =>
      rw [staticText, List.append_assoc]
      exact isPlain_staticWord.trimStart_append _

/-- What is left after the words of the statement is the target. -/
theorem trim_afterStatic :
    trim ((afterWord? "static".toList (staticText statement.static ++ statement.target.text)).getD
      (staticText statement.static ++ statement.target.text)) = statement.target.text := by
  have plain := statement.target.isPlain
  cases statement.static with
  | none =>
      rw [staticText, List.nil_append, afterWord?_of_solid _ plain.solid]
      exact plain.trim_eq
  | some space =>
      have afterStatic : afterWord? "static".toList
          (staticWord ++ (space.text ++ statement.target.text)) = _ :=
        afterWord?_append staticWord space _
      rw [staticText, List.append_assoc, afterStatic, Option.getD_some,
        Text.trim_of_blank_append space.isBlank, plain.trim_eq]

theorem importIn?_body : importIn? statement.body = some statement.target.text := by
  have plain := statement.target.isPlain
  have afterImport : afterWord? "import".toList (trim statement.body) =
      some (statement.space.text ++ (staticText statement.static ++ statement.target.text)) := by
    rw [trim_body]
    exact afterWord?_append importWord statement.space _
  have solid : statement.target.text.filter (!isBlank ·) = statement.target.text := by
    rw [List.filter_eq_self]
    intro character member
    rw [plain.solid character member]
    rfl
  have nonempty : statement.target.text.isEmpty = false := by simp [plain.nonempty]
  rw [importIn?, afterImport]
  simp only [Option.bind_eq_bind, Option.bind_some, trimStart_afterImport, trim_afterStatic,
    solid, nonempty, Bool.false_eq_true, if_false]

/-- A line with imports declares no package. -/
theorem packageIn?_line : packageIn? (trim (statements.flatMap (·.text))) = none := by
  cases statements with
  | nil => decide
  | cons statement statements =>
      simp only [List.flatMap_cons, ImportStatement.text, body, List.append_assoc]
      rw [Text.trim_of_blank_append statement.indentation.isBlank, isPlain_importWord.trim_append,
        packageIn?_importWord]

/-- Blanks before the first statement of a line do not count. -/
theorem filterMap_splitOn_trimStart (text : List Char) :
    ((trimStart text).splitOn ';').filterMap importIn? =
      (text.splitOn ';').filterMap importIn? := by
  induction text with
  | nil => rfl
  | cons character text ih =>
      by_cases blank : isBlank character = true
      · have other : (character == ';') = false := by
          rw [beq_eq_false_iff_ne]
          rintro rfl
          cases blank
        obtain ⟨first, others, pieces⟩ :=
          List.exists_cons_of_ne_nil (List.splitOnP_ne_nil (· == ';') text)
        have split : (character :: text).splitOn ';' = (character :: first) :: others := by
          rw [List.splitOn, List.splitOnP_cons_eq_if_modifyHead, other, pieces]
          rfl
        have same : importIn? (character :: first) = importIn? first := by
          rw [importIn?, importIn?, trim, trim, Text.trimStart_cons_blank blank]
        rw [Text.trimStart_cons_blank blank, ih, split, List.filterMap_cons, same,
          ← List.filterMap_cons, ← pieces]
        rfl
      · rw [Text.trimStart_cons_solid (by simpa using blank)]

/-- A line with imports gives their targets in order. -/
theorem filterMap_importIn?_line :
    ((trim (statements.flatMap (·.text))).splitOn ';').filterMap importIn? =
      statements.map (·.target.text) := by
  have ended : trim (statements.flatMap (·.text)) = trimStart (statements.flatMap (·.text)) := by
    rcases List.eq_nil_or_concat statements with rfl | ⟨others, last, rfl⟩
    · rfl
    · have shape : (others.concat last).flatMap (·.text) =
          others.flatMap (·.text) ++ last.body ++ [';'] := by
        simp [text]
      rw [shape, Text.trim_append_solid (by decide), Text.trimStart_append_solid (by decide)]
      rfl
  have pieces : (statements.flatMap (·.text)).splitOn ';' = statements.map (·.body) ++ [[]] := by
    have absent : ∀ piece ∈ statements.map (·.body), ';' ∉ piece := by
      intro piece member
      obtain ⟨statement, -, rfl⟩ := List.mem_map.1 member
      exact statement.not_mem_body isForeign_semicolon
    rw [← Text.splitOn_flatMap absent, List.flatMap_map]
    rfl
  have each : importIn? ∘ ImportStatement.body = some ∘ (·.target.text) := funext importIn?_body
  rw [ended, filterMap_splitOn_trimStart, pieces, List.filterMap_append, List.filterMap_map, each,
    List.filterMap_eq_map]
  exact List.append_nil _

end ImportStatement

/-! ## Whole headers -/

/-- What the lines of an item hold besides comments. -/
def Item.statements : Item → List (List Char)
  | .package _ statement _ => [statement.text]
  | .imports statements _ => [trim (statements.flatMap (·.text))]
  | .block comment => comment.lines.map fun _ => []

theorem statementLines_cons (isOpen : Bool) (line : List Char) (rest : List (List Char)) :
    statementLines isOpen (dropReturn line :: rest) =
      (statementLine isOpen line).1 :: statementLines (statementLine isOpen line).2 rest := by
  rw [statementLines, statementLine_dropReturn]

/-- A block comment goes on as long as no line ends it. -/
theorem statementLines_inside {middle : List (List Char)}
    (closes : ∀ line ∈ middle, ¬['*', '/'] <:+: line) (rest : List (List Char)) :
    statementLines true (middle.map dropReturn ++ rest) =
      (middle.map fun _ => []) ++ statementLines true rest := by
  induction middle with
  | nil => rfl
  | cons line middle ih =>
      rw [List.map_cons, List.cons_append, statementLines_cons,
        statementLine_inside (closes line List.mem_cons_self),
        ih fun other member => closes other (List.mem_cons_of_mem line member)]
      rfl

/-- An item is read on its own, whatever lines follow it. -/
theorem statementLines_item (item : Item) (rest : List (List Char)) :
    statementLines false (item.lines.map dropReturn ++ rest) =
      item.statements ++ statementLines false rest := by
  cases item with
  | package indentation statement margin =>
      have absent : '/' ∉ indentation.text ++ statement.text := by
        rw [List.mem_append, not_or]
        exact ⟨isForeign_slash.notInBlanks _, statement.not_mem_text isForeign_slash (by decide)⟩
      have line := statementLine_margin absent margin
      rw [statement.trim_append_text] at line
      rw [Item.lines, List.map_singleton, List.singleton_append, statementLines_cons, line]
      rfl
  | imports statements margin =>
      have absent := ImportStatement.not_mem_flatMap_text isForeign_slash (by decide) statements
      rw [Item.lines, List.map_singleton, List.singleton_append, statementLines_cons,
        statementLine_margin absent]
      rfl
  | block comment =>
      rw [Item.lines, BlockComment.lines, List.map_cons, List.cons_append, statementLines_cons,
        statementLine_opening comment.indentation comment.firstCloses, List.map_append,
        List.append_assoc, statementLines_inside comment.middleCloses, List.map_singleton,
        List.singleton_append, statementLines_cons, statementLine_closing comment.lastCloses]
      simp [Item.statements, BlockComment.lines]

theorem statementLines_layout (layout : Layout) (rest : List (List Char)) :
    statementLines false ((layout.flatMap (·.lines)).map dropReturn ++ rest) =
      layout.flatMap (·.statements) ++ statementLines false rest := by
  induction layout with
  | nil => rfl
  | cons item layout ih =>
      rw [List.flatMap_cons, List.map_append, List.append_assoc, statementLines_item, ih,
        List.flatMap_cons, List.append_assoc]

/-- No item of a header ends it. -/
theorem declaresType_of_mem_statements {item : Item} {statement : List Char}
    (member : statement ∈ item.statements) : declaresType statement = false := by
  cases item with
  | package indentation statement margin =>
      rw [List.mem_singleton.1 member]
      exact statement.declaresType_text
  | imports statements margin =>
      rw [List.mem_singleton.1 member]
      exact ImportStatement.declaresType_line statements
  | block comment =>
      obtain ⟨_, -, rfl⟩ := List.mem_map.1 member
      exact ImportStatement.declaresType_line []

theorem Layout.lineFeed_not_mem (layout : Layout) :
    ∀ line ∈ layout.flatMap (·.lines), '\n' ∉ line := by
  intro line member
  obtain ⟨item, -, inside⟩ := List.mem_flatMap.1 member
  exact item.lineFeed_not_mem inside

theorem Layout.declaresType_eq_false (layout : Layout) :
    ∀ statement ∈ layout.flatMap (·.statements), !declaresType statement := by
  intro statement member
  obtain ⟨item, -, inside⟩ := List.mem_flatMap.1 member
  rw [declaresType_of_mem_statements inside]
  rfl

theorem headerLines_layout (layout : Layout) (line : TypeLine) (body : Option (List Char)) :
    headerLines (layout.text ++ line.followedBy body) =
      (layout.flatMap (·.statements)).filter (!·.isEmpty) := by
  obtain ⟨first, others, lines, same⟩ := line.exists_lines_followedBy body
  have stops : declaresType (statementLine false first).1 = true := by
    rw [same]
    exact line.declaresType_statementLine
  rw [headerLines, Layout.text, Text.lines_flatMap_append layout.lineFeed_not_mem, lines,
    statementLines_layout, List.takeWhile_append_of_pos layout.declaresType_eq_false,
    statementLines, List.takeWhile_cons_of_neg (by simp [stops]), List.append_nil]

theorem headerLines_text (layout : Layout) :
    headerLines layout.text = (layout.flatMap (·.statements)).filter (!·.isEmpty) := by
  have all := statementLines_layout layout []
  rw [List.append_nil, show statementLines false [] = [] from rfl, List.append_nil] at all
  rw [headerLines, Layout.text, Text.lines_flatMap layout.lineFeed_not_mem, all,
    List.takeWhile_eq_self_iff.2 layout.declaresType_eq_false]

theorem packageIn?_of_item (item : Item) :
    item.statements.findSome? packageIn? = item.package? := by
  cases item with
  | package indentation statement margin =>
      rw [Item.statements, List.findSome?_cons, statement.packageIn?_text]
      rfl
  | imports statements margin =>
      rw [Item.statements, List.findSome?_cons, ImportStatement.packageIn?_line]
      rfl
  | block comment =>
      rw [Item.statements, List.findSome?_eq_none_iff.2]
      · rfl
      · intro text member
        obtain ⟨_, -, rfl⟩ := List.mem_map.1 member
        exact ImportStatement.packageIn?_line []

theorem importIn?_of_item (item : Item) :
    (item.statements.flatMap (·.splitOn ';')).filterMap importIn? = item.targets := by
  rw [List.filterMap_flatMap]
  cases item with
  | package indentation statement margin =>
      rw [Item.statements, List.flatMap_singleton, statement.filterMap_importIn?_text]
      rfl
  | imports statements margin =>
      rw [Item.statements, List.flatMap_singleton, ImportStatement.filterMap_importIn?_line]
      rfl
  | block comment =>
      rw [Item.statements, List.flatMap_eq_nil_iff.2]
      · rfl
      · intro text member
        obtain ⟨_, -, rfl⟩ := List.mem_map.1 member
        exact ImportStatement.filterMap_importIn?_line []

/-- Empty lines declare no package. -/
theorem findSome?_filter (texts : List (List Char)) :
    (texts.filter (!·.isEmpty)).findSome? packageIn? = texts.findSome? packageIn? := by
  induction texts with
  | nil => rfl
  | cons text texts ih =>
      cases text with
      | nil =>
          rw [List.filter_cons_of_neg (by simp), ih, List.findSome?_cons,
            show packageIn? [] = none from ImportStatement.packageIn?_line []]
      | cons character text =>
          rw [List.filter_cons_of_pos (by simp), List.findSome?_cons, List.findSome?_cons, ih]

/-- Empty lines import nothing. -/
theorem filterMap_flatMap_filter (texts : List (List Char)) :
    ((texts.filter (!·.isEmpty)).flatMap (·.splitOn ';')).filterMap importIn? =
      (texts.flatMap (·.splitOn ';')).filterMap importIn? := by
  induction texts with
  | nil => rfl
  | cons text texts ih =>
      cases text with
      | nil =>
          rw [List.filter_cons_of_neg (by simp), ih, List.flatMap_cons, List.filterMap_append,
            show (List.splitOn ';' []).filterMap importIn? = [] from
              ImportStatement.filterMap_importIn?_line []]
          rfl
      | cons character text =>
          rw [List.filter_cons_of_pos (by simp), List.flatMap_cons, List.flatMap_cons,
            List.filterMap_append, List.filterMap_append, ih]

theorem findSome?_layout (layout : Layout) :
    (layout.flatMap (·.statements)).findSome? packageIn? = layout.findSome? (·.package?) := by
  induction layout with
  | nil => rfl
  | cons item layout ih =>
      rw [List.flatMap_cons, List.findSome?_append, packageIn?_of_item, ih, List.findSome?_cons]
      cases item.package? <;> rfl

theorem filterMap_layout (layout : Layout) :
    ((layout.flatMap (·.statements)).flatMap (·.splitOn ';')).filterMap importIn? =
      layout.flatMap (·.targets) := by
  rw [List.flatMap_assoc, List.filterMap_flatMap]
  simp only [importIn?_of_item]

/-- A source file with nothing but a header imports what its layout declares. -/
theorem importsOf_text (layout : Layout) :
    importsOf (String.ofList layout.text) = layout.header.imports := by
  rw [importsOf, String.toList_ofList, headerLines_text, filterMap_flatMap_filter,
    filterMap_layout]
  rfl

/-- The header of a source file is what its layout declares, and the text after the line of the
first type declaration does not matter. -/
theorem ofSource_layout (layout : Layout) (line : TypeLine) (body : Option (List Char)) :
    ofSource (String.ofList (layout.text ++ line.followedBy body)) = layout.header := by
  rw [ofSource, packageOf?, importsOf, String.toList_ofList, headerLines_layout, findSome?_filter,
    filterMap_flatMap_filter, findSome?_layout, filterMap_layout]
  rfl

example :
    ofSource "/* import a;\n*/\npackage p ; // enum\nimport a.B;import static c.*;\nenum E\nimport d;" =
      { package := some "p", imports := ["a.B", "c.*"] } := by
  decide +kernel

end ClassAtlas.SourceHeader
