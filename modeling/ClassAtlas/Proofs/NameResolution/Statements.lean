import ClassAtlas.Proofs.NameResolution.Precedence
import ClassAtlas.Proofs.SourceHeader.Recovery

/-!
# Import statements as they are written

Imports can be handed to the resolution of a name as statements or as the targets that are read
from the header of a source file.  Both give the same answer when the keywords of each statement
have a space behind them (`resolve_statements`).  The header is read with any blank there.
-/

namespace ClassAtlas

namespace SourceHeader

/-! ## Headers of imports -/

/-- The header with these statements on lines of their own. -/
def Layout.ofImports (statements : List ImportStatement) : Layout :=
  statements.map fun statement => .imports [statement] .none

theorem importsOf_ofImports (statements : List ImportStatement) :
    importsOf (String.ofList (Layout.ofImports statements).text) =
      statements.map (String.ofList ·.target.text) := by
  have targets : (Layout.ofImports statements).flatMap (·.targets) =
      statements.map (·.target.text) := by
    rw [Layout.ofImports, List.flatMap_map, List.map_eq_flatMap]
    rfl
  rw [importsOf_text, Layout.header, targets, List.map_map]
  rfl

/-! ## Statements with spaces -/

/-- The first of the blanks is a space. -/
def Space.IsSpaced (space : Space) : Prop :=
  space.text.head? = some ' '

/-- A space follows each keyword of the statement, and what is imported is not called like the
second one. -/
structure ImportStatement.IsSpaced (statement : ImportStatement) : Prop where
  afterImport : statement.space.IsSpaced
  afterStatic : ∀ space ∈ statement.static, space.IsSpaced
  named : statement.target.text ≠ staticWord

end SourceHeader

namespace Import

open SourceHeader (ImportStatement Space importWord staticWord staticText isForeign_semicolon
  isPlain_importWord isPlain_staticWord)
open Text (trim trimStart trimEnd withoutStart)

/-- A keyword is taken off with the blanks behind it. -/
theorem trimStart_withoutStart {space : Space} (spaced : space.IsSpaced) (word rest : List Char) :
    trimStart (withoutStart (word ++ [' ']) (word ++ (space.text ++ rest))) = trimStart rest := by
  obtain ⟨⟨text, blank, single⟩, nonempty⟩ := space
  obtain ⟨blanks, rfl⟩ := List.head?_eq_some_iff.1 spaced
  have found : (word ++ [' ']).isPrefixOf? (word ++ (' ' :: blanks ++ rest)) =
      some (blanks ++ rest) :=
    Text.isPrefixOf?_eq_some_iff.2 (by simp)
  rw [Text.isBlankText, List.all_cons, Bool.and_eq_true] at blank
  rw [withoutStart, found, Option.getD_some, Text.trimStart_append_of_blank blank.2]

variable {statement : ImportStatement}

/-- The rest of a statement from its target on begins with no keyword. -/
theorem not_startsStatic (named : statement.target.text ≠ staticWord) :
    ¬staticWord ++ [' '] <+: statement.target.text ++ (statement.gap.text ++ [';']) := by
  have plain := statement.target.isPlain
  intro start
  cases gap : statement.gap.text with
  | nil =>
      -- The semicolon ends the first word, and no keyword has one.
      have solid : Text.IsSolid (statement.target.text ++ [';']) := by
        intro character member
        rw [List.mem_append, List.mem_singleton] at member
        rcases member with inTarget | rfl
        · exact plain.solid character inTarget
        · rfl
      rw [gap, List.nil_append, ← List.append_nil (_ ++ [';'])] at start
      have same := Text.eq_of_prefix_atBlank isPlain_staticWord.solid solid (by simp [Text.AtBlank])
        (by decide) start
      exact isPlain_staticWord.semicolon (same ▸ by simp)
  | cons blank blanks =>
      have isBlank := List.all_eq_true.1 statement.gap.isBlank blank (gap ▸ List.mem_cons_self)
      rw [gap, List.cons_append] at start
      exact named (Text.eq_of_prefix_atBlank isPlain_staticWord.solid plain.solid
        (Text.atBlank_cons isBlank _) (by decide) start)

theorem target_ofList (text : List Char) :
    target (String.ofList text) = trimStart (withoutStart (staticWord ++ [' '])
      (trimStart (withoutStart (importWord ++ [' ']) (trim text)))) :=
  congrArg (fun text => trimStart (withoutStart (staticWord ++ [' '])
    (trimStart (withoutStart (importWord ++ [' ']) (trim text))))) String.toList_ofList

theorem trim_text (statement : ImportStatement) :
    trim statement.text = importWord ++ (statement.space.text ++ (staticText statement.static ++
      (statement.target.text ++ (statement.gap.text ++ [';'])))) := by
  have shape : statement.text = statement.indentation.text ++ (importWord ++
      (statement.space.text ++ (staticText statement.static ++
        (statement.target.text ++ statement.gap.text))) ++ [';']) := by
    simp [ImportStatement.text, ImportStatement.body]
  rw [shape, Text.trim_of_blank_append statement.indentation.isBlank,
    Text.trim_append_solid (by decide), isPlain_importWord.trimStart_append]
  simp [trimEnd]

/-- What is left of a statement behind its keywords. -/
theorem target_text (spaced : statement.IsSpaced) :
    target (String.ofList statement.text) =
      statement.target.text ++ (statement.gap.text ++ [';']) := by
  have plain := statement.target.isPlain
  rw [target_ofList, trim_text, trimStart_withoutStart spaced.afterImport]
  cases static : statement.static with
  | none =>
      rw [staticText, List.nil_append, plain.trimStart_append,
        Text.withoutStart_of_not_prefix (not_startsStatic spaced.named), plain.trimStart_append]
  | some space =>
      rw [staticText, List.append_assoc, isPlain_staticWord.trimStart_append,
        trimStart_withoutStart (spaced.afterStatic space static), plain.trimStart_append]

/-- A target has no keywords. -/
theorem target_target (statement : ImportStatement) :
    target (String.ofList statement.target.text) = statement.target.text := by
  have plain := statement.target.isPlain
  have start : trimStart statement.target.text = statement.target.text := by
    simpa using plain.trimStart_append []
  have none (word : List Char) : ¬word ++ [' '] <+: statement.target.text := by
    intro start
    cases plain.solid ' ' (start.subset (by simp))
  rw [target_ofList, plain.trim_eq, Text.withoutStart_of_not_prefix (none importWord), start,
    Text.withoutStart_of_not_prefix (none staticWord), start]

/-- A statement is read as its target is. -/
theorem parse?_text (spaced : statement.IsSpaced) :
    parse? (String.ofList statement.text) = parse? (String.ofList statement.target.text) := by
  have plain := statement.target.isPlain
  have absent : ';' ∉ statement.target.text ++ statement.gap.text := by
    rw [List.mem_append, not_or]
    exact ⟨plain.semicolon, isForeign_semicolon.notInBlanks _⟩
  have written : trimEnd (Text.dropEnd ';' (target (String.ofList statement.text))) =
      statement.target.text := by
    rw [target_text spaced, ← List.append_assoc, Text.dropEnd_append absent,
      Text.trimEnd_append_of_blank statement.gap.isBlank]
    exact plain.trimEnd_append []
  have bare : trimEnd (Text.dropEnd ';' (target (String.ofList statement.target.text))) =
      statement.target.text := by
    rw [target_target, Text.dropEnd_of_not_mem plain.semicolon]
    exact plain.trimEnd_append []
  rw [parse?, parse?, written, bare]

end Import

namespace NameResolution

open SourceHeader (ImportStatement Layout importsOf importsOf_ofImports)

variable {index : ClassIndex} {imports others : List String} {current : Option String}
  {name simple package : String}

/-- The characters of a package that an import is compared with have no blank and no semicolon
among them. -/
def IsComparable (package : String) : Prop :=
  ∀ character ∈ package.toList.take nearness, Text.isBlank character = false ∧ character ≠ ';'

instance (package : String) : Decidable (IsComparable package) :=
  List.decidableBAll (fun character => Text.isBlank character = false ∧ character ≠ ';') _

/-- A statement is near the packages that its target is near. -/
theorem isNear_text {statement : ImportStatement} (spaced : statement.IsSpaced)
    (comparable : IsComparable package) :
    isNear package (String.ofList statement.text) =
      isNear package (String.ofList statement.target.text) := by
  have apart : ∀ character ∈ statement.gap.text ++ [';'],
      character ∉ package.toList.take nearness := by
    intro character member inPackage
    have both := comparable character inPackage
    rw [List.mem_append, List.mem_singleton] at member
    rcases member with inGap | isSemicolon
    · rw [List.all_eq_true.1 statement.gap.isBlank character inGap] at both
      cases both.1
    · exact both.2 isSemicolon
  rw [Bool.eq_iff_iff, isNear, isNear, List.isPrefixOf_iff_prefix, List.isPrefixOf_iff_prefix,
    Import.target_text spaced, Import.target_target, Text.prefix_append_iff_of_apart apart]

/-- A guess looks at nothing in the imports but which of them are near a candidate. -/
theorem guess_congr
    (near : ∀ package ∈ index.packagesOf simple,
      imports.map (isNear package) = others.map (isNear package)) :
    guess index imports simple = guess index others simple := by
  have counts : ∀ package ∈ index.packagesOf simple,
      imports.countP (isNear package) = others.countP (isNear package) := by
    intro package listed
    have same := congrArg (List.countP id) (near package listed)
    rwa [List.countP_map, List.countP_map] at same
  have scores : ∀ package ∈ index.packagesOf simple,
      score imports simple package = score others simple package := by
    intro package listed
    rw [score, score, counts package listed]
  have highest : bestScore imports simple (index.packagesOf simple) =
      bestScore others simple (index.packagesOf simple) := by
    rw [bestScore, bestScore, List.map_congr_left scores]
  have winners : best imports simple (index.packagesOf simple) =
      best others simple (index.packagesOf simple) := by
    apply List.filter_congr
    intro package listed
    rw [scores package listed, highest]
  have trust : ∀ package ∈ index.packagesOf simple,
      confidence imports package = confidence others package := by
    intro package listed
    have same := congrArg (List.any · id) (near package listed)
    simp only [List.any_map, Function.id_comp] at same
    rw [confidence, confidence, same]
  rw [guess, guess, winners]
  cases winning : best others simple (index.packagesOf simple) with
  | nil => rfl
  | cons winner rest =>
      have listed : winner ∈ index.packagesOf simple := by
        have first : winner ∈ best others simple (index.packagesOf simple) :=
          winning ▸ List.mem_cons_self
        exact (List.mem_filter.1 first).1
      simp only [trust winner listed]

/-- Resolution looks at nothing in the imports but what they make known and which of them are near
a package that the index lists for the name. -/
theorem resolve_congr_imports
    (known : imports.filterMap Import.parse? = others.filterMap Import.parse?)
    (near : ∀ package ∈ index.packagesOf (Text.trimmed name),
      imports.map (isNear package) = others.map (isNear package)) :
    resolve index imports current name = resolve index others current name := by
  simp only [resolve, decide?, known, guess_congr near]

/-- Statements with a space behind each keyword mean what the imports mean that are read from a
source file with them. -/
theorem resolve_statements (index : ClassIndex) {statements : List ImportStatement}
    (current : Option String) (name : String)
    (spaced : ∀ statement ∈ statements, statement.IsSpaced)
    (comparable : ∀ package ∈ index.packagesOf (Text.trimmed name), IsComparable package) :
    resolve index (statements.map (String.ofList ·.text)) current name =
      resolve index (importsOf (String.ofList (Layout.ofImports statements).text)) current
        name := by
  rw [importsOf_ofImports]
  apply resolve_congr_imports
  · rw [List.filterMap_map, List.filterMap_map]
    apply List.filterMap_congr
    intro statement member
    rw [Function.comp_apply, Function.comp_apply, Import.parse?_text (spaced statement member)]
  · intro package listed
    rw [List.map_map, List.map_map]
    apply List.map_congr_left
    intro statement member
    rw [Function.comp_apply, Function.comp_apply,
      isNear_text (spaced statement member) (comparable package listed)]

namespace Sample

open SourceHeader

/-- `a.B` -/
def type : Target where
  name := ⟨⟨['a'], by decide, by decide⟩, [⟨['B'], by decide, by decide⟩]⟩
  isWildcard := false

/-- `import static  a.B ;`, with these blanks behind the first keyword. -/
def static (space : Space) : ImportStatement where
  indentation := .none
  space
  static := some ⟨⟨[' ', ' '], rfl, by decide⟩, List.cons_ne_nil _ _⟩
  target := type
  gap := ⟨Space.one.toBlanks, .inr (by decide)⟩

def tab : Space := ⟨⟨['\t'], rfl, by decide⟩, List.cons_ne_nil _ _⟩

theorem spaced : ∀ statement ∈ [static .one], statement.IsSpaced := by
  intro statement member
  rw [List.mem_singleton.1 member]
  refine ⟨rfl, ?_, by decide⟩
  intro space isSpace
  cases isSpace
  rfl

end Sample

/-- A static import with many blanks. -/
theorem resolve_statements_static :
    let index := (({} : ClassIndex).insert ⟨"a.B", "C"⟩).insert ⟨"b", "C"⟩
    let statements := [Sample.static .one]
    (∀ statement ∈ statements, statement.IsSpaced) ∧
      (∀ package ∈ index.packagesOf (Text.trimmed "C"), IsComparable package) ∧
      resolve index (statements.map (String.ofList ·.text)) none "C" =
        resolve index (importsOf (String.ofList (Layout.ofImports statements).text)) none "C" ∧
      (resolve index (statements.map (String.ofList ·.text)) none "C").resolved = some "a.B.C" := by
  intro index statements
  have comparable : ∀ package ∈ index.packagesOf (Text.trimmed "C"), IsComparable package := by
    decide +kernel
  exact ⟨Sample.spaced, comparable, resolve_statements index none "C" Sample.spaced comparable,
    by decide +kernel⟩

/-- Neither condition can be left out.  With a tab behind the keyword the statement is taken for
the name of a class whose package begins with `import`, and a blank at the end of a package is
found behind the target of a statement only. -/
theorem not_resolve_statements :
    ¬(∀ index statements current name,
      (∀ package ∈ index.packagesOf (Text.trimmed name), IsComparable package) →
        resolve index (statements.map (String.ofList ·.text)) current name =
          resolve index (importsOf (String.ofList (Layout.ofImports statements).text)) current
            name) ∧
    ¬(∀ index (statements : List ImportStatement) current name,
      (∀ statement ∈ statements, statement.IsSpaced) →
        resolve index (statements.map (String.ofList ·.text)) current name =
          resolve index (importsOf (String.ofList (Layout.ofImports statements).text)) current
            name) := by
  constructor
  · intro agree
    have packages := congrArg Resolution.matching (agree {} [Sample.static Sample.tab] none "B"
      fun package listed => nomatch listed)
    revert packages
    decide +kernel
  · intro agree
    let index := (({} : ClassIndex).insert ⟨"a.B ", "C"⟩).insert ⟨"b", "C"⟩
    have winners := congrArg Resolution.matching
      (agree index [Sample.static .one] none "C" Sample.spaced)
    revert winners
    decide +kernel

end NameResolution
end ClassAtlas
