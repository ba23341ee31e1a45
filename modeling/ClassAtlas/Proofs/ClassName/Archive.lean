import ClassAtlas.ClassName
import ClassAtlas.Proofs.Text.Cut
import Mathlib.Data.List.Basic
import Mathlib.Data.List.TakeWhile

/-!
# Versions in the names of archives

An archive is called after its artifact and its version, with a hyphen between them.  Reading
such a name back takes the last hyphen that a version follows for the one between them.  A
version has at most one hyphen, the mark of its qualifier.  So the artifact is recovered unless
the qualifier is a version itself: `lib-1.0-2.jar` is the archive of `lib` in version `1.0-2`,
but that of `lib-1.0` in version `2` as well (`dependencyName?_archive`).
-/

namespace ClassAtlas

namespace ArchiveName

/-! ## Versions -/

/-- A number in decimal digits, of any script. -/
structure Number where
  digits : List Char
  nonempty : digits ≠ []
  areDigits : ∀ character ∈ digits, Text.isDigit character = true

/-- What sets a qualifier off from the numbers of a version. -/
inductive Mark where
  | hyphen
  | dot

def Mark.character : Mark → Char
  | hyphen => '-'
  | dot => '.'

/-- What may follow the numbers of a version. -/
structure Qualifier where
  mark : Mark
  letters : List Char
  nonempty : letters ≠ []
  areLetters : ∀ character ∈ letters, Text.isWordCharacter character = true ∨ character = '.'

def Qualifier.text (qualifier : Qualifier) : List Char :=
  qualifier.mark.character :: qualifier.letters

/-- Numbers separated by dots, then a qualifier or none. -/
structure Version where
  first : Number
  others : List Number
  qualifier : Option Qualifier

namespace Version

/-- The version without its qualifier. -/
def numbers (version : Version) : List Char :=
  version.first.digits ++ version.others.flatMap ('.' :: ·.digits)

def text (version : Version) : List Char :=
  version.numbers ++ (version.qualifier.map Qualifier.text).getD []

/-- The qualifier follows a hyphen and is a version itself. -/
def EndsInVersion (version : Version) : Prop :=
  ∃ qualifier, version.qualifier = some qualifier ∧ qualifier.mark = .hyphen ∧
    ∃ inner : Version, inner.text = qualifier.letters

end Version

/-! ## What versions are made of -/

section Characters

variable {character : Char}

theorem Number.not_mem_digits (number : Number) (noDigit : Text.isDigit character = false) :
    character ∉ number.digits := by
  intro member
  rw [number.areDigits character member] at noDigit
  cases noDigit

theorem Qualifier.not_mem_letters (qualifier : Qualifier)
    (noWord : Text.isWordCharacter character = false) (noDot : character ≠ '.') :
    character ∉ qualifier.letters := by
  intro member
  rcases qualifier.areLetters character member with isWord | isDot
  · rw [isWord] at noWord
    cases noWord
  · exact noDot isDot

namespace Version

variable (version : Version)

theorem not_mem_numbers (noDigit : Text.isDigit character = false) (noDot : character ≠ '.') :
    character ∉ version.numbers := by
  simp only [numbers, List.mem_append, List.mem_flatMap, List.mem_cons, not_or, not_exists,
    not_and]
  exact ⟨version.first.not_mem_digits noDigit,
    fun number _ => ⟨noDot, number.not_mem_digits noDigit⟩⟩

theorem hyphen_not_mem_numbers : '-' ∉ version.numbers :=
  version.not_mem_numbers (by decide) (by decide)

theorem lineFeed_not_mem_text : '\n' ∉ version.text := by
  have inNumbers : '\n' ∉ version.numbers := version.not_mem_numbers (by decide) (by decide)
  rw [text, List.mem_append, not_or]
  refine ⟨inNumbers, ?_⟩
  cases version.qualifier with
  | none => exact List.not_mem_nil
  | some qualifier =>
      have inLetters : '\n' ∉ qualifier.letters :=
        qualifier.not_mem_letters (by decide) (by decide)
      obtain ⟨mark, letters⟩ := qualifier
      cases mark <;> simpa [Qualifier.text, Mark.character] using inLetters

/-- The only hyphen of a version is the mark of its qualifier. -/
theorem qualifier_of_hyphen {rest : List Char} (ending : '-' :: rest <:+ version.text) :
    ∃ qualifier, version.qualifier = some qualifier ∧ qualifier.mark = .hyphen ∧
      rest = qualifier.letters := by
  have inNumbers := version.hyphen_not_mem_numbers
  obtain ⟨front, whole⟩ := ending
  rw [text] at whole
  cases isQualified : version.qualifier with
  | none =>
      rw [isQualified, Option.map_none, Option.getD_none, List.append_nil] at whole
      exact absurd (whole ▸ by simp) inNumbers
  | some qualifier =>
      have inLetters : '-' ∉ qualifier.letters :=
        qualifier.not_mem_letters (by decide) (by decide)
      rw [isQualified, Option.map_some, Option.getD_some, Qualifier.text] at whole
      cases isMark : qualifier.mark with
      | hyphen =>
          rw [isMark] at whole
          have parts := (List.append_cons_inj_of_notMem inNumbers inLetters).1 whole.symm
          exact ⟨qualifier, rfl, isMark, parts.2.2.symm⟩
      | dot =>
          have member : '-' ∈ version.numbers ++ '.' :: qualifier.letters := by
            rw [isMark] at whole
            exact whole ▸ by simp
          simp [inNumbers, inLetters] at member

end Version

end Characters

/-! ## Recognition -/

section Recognition

theorem isQualifier_iff {text : List Char} :
    isQualifier text = true ↔
      text ≠ [] ∧ ∀ character ∈ text, Text.isWordCharacter character = true ∨ character = '.' := by
  simp [isQualifier]

theorem Qualifier.isQualifier_letters (qualifier : Qualifier) :
    isQualifier qualifier.letters = true :=
  isQualifier_iff.2 ⟨qualifier.nonempty, qualifier.areLetters⟩

theorem isVersion_digits (number : Number) : isVersion number.digits = true := by
  have ends : number.digits.dropWhile Text.isDigit = [] :=
    List.dropWhile_eq_nil_iff.2 number.areDigits
  have whole : number.digits.takeWhile Text.isDigit = number.digits :=
    List.takeWhile_eq_self_iff.2 number.areDigits
  rw [isVersion, ends, whole]
  simpa using number.nonempty

theorem isVersion_append (number : Number) {mark : Char} (stops : Text.isDigit mark = false)
    (rest : List Char) :
    isVersion (number.digits ++ mark :: rest) =
      (mark == '.' && (isQualifier rest || isVersion rest) || mark == '-' && isQualifier rest) := by
  have nonempty : number.digits.isEmpty = false := by simpa using number.nonempty
  rw [isVersion, List.takeWhile_append_of_pos number.areDigits,
    List.dropWhile_append_of_pos number.areDigits, List.takeWhile_cons_of_neg (by simp [stops]),
    List.dropWhile_cons_of_neg (by simp [stops]), List.append_nil, nonempty]
  split <;> simp_all

theorem isVersion_text (version : Version) : isVersion version.text = true := by
  obtain ⟨first, others, qualifier⟩ := version
  induction others generalizing first with
  | nil =>
      cases qualifier with
      | none =>
          have whole := isVersion_digits first
          simpa [Version.text, Version.numbers] using whole
      | some qualifier =>
          have shape : (Version.mk first [] (some qualifier)).text =
              first.digits ++ qualifier.mark.character :: qualifier.letters := by
            simp [Version.text, Version.numbers, Qualifier.text]
          have stops : Text.isDigit qualifier.mark.character = false := by
            cases qualifier.mark <;> decide
          rw [shape, isVersion_append first stops, qualifier.isQualifier_letters]
          cases qualifier.mark <;> rfl
  | cons next others ih =>
      have shape : (Version.mk first (next :: others) qualifier).text =
          first.digits ++ '.' :: (Version.mk next others qualifier).text := by
        simp [Version.text, Version.numbers]
      rw [shape, isVersion_append first (by decide), ih next]
      simp

theorem exists_number {text : List Char}
    (nonempty : (!(text.takeWhile Text.isDigit).isEmpty) = true) :
    ∃ number : Number, text = number.digits ++ text.dropWhile Text.isDigit :=
  ⟨⟨text.takeWhile Text.isDigit, by simpa using nonempty, fun _ => List.mem_takeWhile_imp⟩,
    List.takeWhile_append_dropWhile.symm⟩

/-- Every text that is recognised is a version. -/
theorem exists_version {text : List Char} (recognised : isVersion text = true) :
    ∃ version : Version, version.text = text := by
  fun_induction isVersion text with
  | case1 text digits ends =>
      obtain ⟨number, whole⟩ := exists_number recognised
      refine ⟨⟨number, [], none⟩, ?_⟩
      rw [whole, ends]
      simp [Version.text, Version.numbers]
  | case2 text digits rest goesOn ih =>
      rw [Bool.and_eq_true, Bool.or_eq_true] at recognised
      obtain ⟨number, whole⟩ := exists_number recognised.1
      rw [whole, goesOn]
      rcases recognised.2 with isLast | isMore
      · obtain ⟨nonempty, areLetters⟩ := isQualifier_iff.1 isLast
        exact ⟨⟨number, [], some ⟨.dot, rest, nonempty, areLetters⟩⟩,
          by simp [Version.text, Version.numbers, Qualifier.text, Mark.character]⟩
      · obtain ⟨version, rfl⟩ := ih isMore
        exact ⟨⟨number, version.first :: version.others, version.qualifier⟩,
          by simp [Version.text, Version.numbers]⟩
  | case3 text digits rest goesOn =>
      rw [Bool.and_eq_true] at recognised
      obtain ⟨number, whole⟩ := exists_number recognised.1
      obtain ⟨nonempty, areLetters⟩ := isQualifier_iff.1 recognised.2
      rw [whole, goesOn]
      exact ⟨⟨number, [], some ⟨.hyphen, rest, nonempty, areLetters⟩⟩,
        by simp [Version.text, Version.numbers, Qualifier.text, Mark.character]⟩
  | case4 => cases recognised

end Recognition

/-! ## The hyphen before the version -/

section Hyphen

variable {text before front version : List Char}

/-- What is read off a name stands before a hyphen and a version. -/
theorem of_beforeVersion? (found : beforeVersion? text = some before) :
    before ≠ [] ∧ '\n' ∉ before ∧
      ∃ version, text = before ++ '-' :: version ∧ isVersion version = true := by
  fun_induction beforeVersion? text generalizing before with
  | case1 | case2 | case5 | case6 => cases found
  | case3 first rest single inner _ ih =>
      cases found
      obtain ⟨_, others, version, shape, recognised⟩ := ih ‹_›
      refine ⟨List.cons_ne_nil _ _, ?_, version, by rw [shape]; rfl, recognised⟩
      rw [List.mem_cons, not_or]
      exact ⟨by rintro rfl; exact single rfl, others⟩
  | case4 first single version recognised =>
      cases found
      refine ⟨List.cons_ne_nil _ _, ?_, version, rfl, recognised⟩
      rw [List.mem_singleton]
      rintro rfl
      exact single rfl

/-- Behind the first character no hyphen is found when none has a version behind it. -/
theorem beforeVersion?_cons_eq_none {first : Char}
    (last : ∀ inner, '-' :: inner <:+ text → isVersion inner = false) :
    beforeVersion? (first :: text) = none := by
  rw [Option.eq_none_iff_forall_ne_some]
  intro before found
  obtain ⟨nonempty, -, version, shape, recognised⟩ := of_beforeVersion? found
  obtain ⟨_, others, rfl⟩ := List.exists_cons_of_ne_nil nonempty
  rw [List.cons_append, List.cons_eq_cons] at shape
  rw [last version ⟨others, shape.2.symm⟩] at recognised
  cases recognised

/-- The last hyphen that a version follows is found. -/
theorem beforeVersion?_append (nonempty : front ≠ []) (single : '\n' ∉ front)
    (recognised : isVersion version = true)
    (last : ∀ inner, '-' :: inner <:+ version → isVersion inner = false) :
    beforeVersion? (front ++ '-' :: version) = some front := by
  induction front with
  | nil => exact absurd rfl nonempty
  | cons first others ih =>
      rw [List.mem_cons, not_or] at single
      have other : (first == '\n') = false := by simpa using Ne.symm single.1
      rw [List.cons_append]
      unfold beforeVersion?
      rw [other, if_neg Bool.false_ne_true]
      cases others with
      | nil =>
          have none : beforeVersion? ('-' :: version) = none := beforeVersion?_cons_eq_none last
          simp only [List.nil_append, none, recognised, if_true]
      | cons second others => rw [ih (List.cons_ne_nil _ _) single.2]

end Hyphen

/-! ## Reading names back -/

/-- The artifact as it is read off its name and version. -/
theorem beforeVersion?_name {artifact : List Char} (nonempty : artifact ≠ [])
    (single : '\n' ∉ artifact) (version : Version) (plain : ¬version.EndsInVersion) :
    beforeVersion? (artifact ++ '-' :: version.text) = some artifact := by
  apply beforeVersion?_append nonempty single (isVersion_text version)
  intro inner ending
  obtain ⟨qualifier, isQualified, isMark, rfl⟩ := version.qualifier_of_hyphen ending
  rw [Bool.eq_false_iff]
  intro recognised
  exact plain ⟨qualifier, isQualified, isMark, exists_version recognised⟩

/-- A qualifier that is a version itself is taken for the version. -/
theorem beforeVersion?_name_of_endsInVersion {artifact : List Char} (single : '\n' ∉ artifact)
    {version : Version} (ends : version.EndsInVersion) :
    beforeVersion? (artifact ++ '-' :: version.text) =
      some (artifact ++ '-' :: version.numbers) := by
  obtain ⟨qualifier, isQualified, isMark, inner, same⟩ := ends
  have noHyphen : '-' ∉ qualifier.letters := qualifier.not_mem_letters (by decide) (by decide)
  have noBreak : '\n' ∉ version.numbers := version.not_mem_numbers (by decide) (by decide)
  have shape : artifact ++ '-' :: version.text =
      (artifact ++ '-' :: version.numbers) ++ '-' :: qualifier.letters := by
    simp [Version.text, isQualified, Qualifier.text, isMark, Mark.character]
  rw [shape]
  apply beforeVersion?_append
  · simp
  · simp [single, noBreak]
  · exact same ▸ isVersion_text inner
  · intro rest ending
    exact absurd (ending.subset List.mem_cons_self) noHyphen

/-- Nothing is read off a name with a line feed. -/
theorem beforeVersion?_of_lineFeed {text : List Char} (broken : '\n' ∈ text) :
    beforeVersion? text = none := by
  rw [Option.eq_none_iff_forall_ne_some]
  intro before found
  obtain ⟨-, single, rest, rfl, recognised⟩ := of_beforeVersion? found
  obtain ⟨version, rfl⟩ := exists_version recognised
  simp [single, version.lineFeed_not_mem_text] at broken

end ArchiveName

namespace Path

/-- The stem of a name is what stands before its last dot. -/
theorem splitName_append {stem extension : List Char} (nonempty : stem ≠ [])
    (undotted : '.' ∉ extension) :
    splitName (String.ofList (stem ++ '.' :: extension)) =
      (String.ofList stem, some (String.ofList extension)) := by
  rw [splitName, String.toList_ofList, Text.cutLast_append undotted]
  simp [nonempty]

end Path

namespace ArchiveName

variable {dependency : Dependency} {version : Version} {path : Path}

/-- The path is that of an archive: a `jar` without a classifier, called after the artifact and
its version. -/
structure IsArchiveOf (path : Path) (dependency : Dependency) (version : Version) : Prop where
  named : dependency.artifact ≠ ""
  stated : dependency.version = String.ofList version.text
  plain : dependency.classifier = none
  isJar : dependency.type = "jar"
  filed : path.fileName? = some dependency.archiveName

theorem IsArchiveOf.archiveName_eq (archive : IsArchiveOf path dependency version) :
    dependency.archiveName =
      String.ofList (dependency.artifact.toList ++ '-' :: version.text ++ '.' :: "jar".toList) := by
  have extension : dependency.extension = "jar" := by
    rw [Dependency.extension, archive.isJar]
    rfl
  apply String.toList_injective
  simp [Dependency.archiveName, extension, archive.plain, archive.stated]

theorem IsArchiveOf.stem?_eq (archive : IsArchiveOf path dependency version) :
    path.stem? = some (String.ofList (dependency.artifact.toList ++ '-' :: version.text)) := by
  rw [Path.stem?, archive.filed, Option.map_some, archive.archiveName_eq,
    Path.splitName_append (by simp) (by decide)]

/-- The artifact is read off the path of its archive, unless the version ends in a version of its
own.  Then all that stands before this inner version is read off, as if it were the artifact.  A
name with a line feed is left whole. -/
theorem dependencyName?_archive (archive : IsArchiveOf path dependency version) :
    ('\n' ∉ dependency.artifact.toList → ¬version.EndsInVersion →
      dependencyName? path = some dependency.artifact) ∧
    ('\n' ∉ dependency.artifact.toList → version.EndsInVersion →
      dependencyName? path =
        some (dependency.artifact ++ "-" ++ String.ofList version.numbers)) ∧
    ('\n' ∈ dependency.artifact.toList →
      dependencyName? path = some (dependency.artifact ++ "-" ++ dependency.version)) := by
  have nonempty : dependency.artifact.toList ≠ [] := by simpa using archive.named
  simp only [dependencyName?, archive.stem?_eq, Option.map_some, String.toList_ofList,
    Option.some.injEq]
  refine ⟨fun single apart => ?_, fun single ends => ?_, fun broken => ?_⟩
  · simp only [beforeVersion?_name nonempty single version apart, String.ofList_toList]
  · simp only [beforeVersion?_name_of_endsInVersion single ends]
    exact String.toList_injective (by simp)
  · simp only [beforeVersion?_of_lineFeed (List.mem_append_left _ broken)]
    exact String.toList_injective (by simp [archive.stated])

namespace Sample

def number (digit : Char) (isDigit : Text.isDigit digit = true) : Number where
  digits := [digit]
  nonempty := List.cons_ne_nil _ _
  areDigits := by simpa using isDigit

/-- These letters behind a hyphen. -/
def qualifier (letters : List Char) (recognised : isQualifier letters = true) : Qualifier where
  mark := .hyphen
  letters
  nonempty := (isQualifier_iff.1 recognised).1
  areLetters := (isQualifier_iff.1 recognised).2

/-- `1.0-2` -/
def rebuilt : Version where
  first := number '1' (by decide)
  others := [number '0' (by decide)]
  qualifier := some (qualifier ['2'] (by decide +kernel))

/-- `2.1-rc1` -/
def candidate : Version where
  first := number '2' (by decide)
  others := [number '1' (by decide)]
  qualifier := some (qualifier "rc1".toList (by decide +kernel))

theorem candidate_plain : ¬candidate.EndsInVersion := by
  rintro ⟨qualifier, isQualified, -, inner, same⟩
  cases isQualified
  have recognised := same ▸ isVersion_text inner
  revert recognised
  decide +kernel

end Sample

/-- An artifact with a version in its own name. -/
theorem dependencyName?_archive_candidate :
    let dependency := Dependency.of "org" "log4j-1.2-api" "2.1-rc1"
    let path : Path := ⟨"/r/log4j-1.2-api-2.1-rc1.jar/."⟩
    IsArchiveOf path dependency Sample.candidate ∧ '\n' ∉ dependency.artifact.toList ∧
      ¬Sample.candidate.EndsInVersion ∧ dependencyName? path = some "log4j-1.2-api" := by
  intro dependency path
  have archive : IsArchiveOf path dependency Sample.candidate := by
    constructor <;> decide +kernel
  have single : '\n' ∉ dependency.artifact.toList := by decide
  exact ⟨archive, single, Sample.candidate_plain,
    (dependencyName?_archive archive).1 single Sample.candidate_plain⟩

/-- Neither condition can be left out: the name of an archive does not tell `lib` in version
`1.0-2` from `lib-1.0` in version `2`, and a line feed hides the version. -/
theorem not_dependencyName?_archive :
    ¬(∀ path dependency version, IsArchiveOf path dependency version →
      '\n' ∉ dependency.artifact.toList → dependencyName? path = some dependency.artifact) ∧
    ¬(∀ path dependency version, IsArchiveOf path dependency version →
      ¬version.EndsInVersion → dependencyName? path = some dependency.artifact) := by
  constructor
  · intro recovered
    have read := recovered ⟨"lib-1.0-2.jar"⟩ (.of "org" "lib" "1.0-2") Sample.rebuilt
      (by constructor <;> decide +kernel) (by decide)
    revert read
    decide +kernel
  · intro recovered
    have read := recovered ⟨"a\nb-2.1-rc1.jar"⟩ (.of "org" "a\nb" "2.1-rc1") Sample.candidate
      (by constructor <;> decide +kernel) Sample.candidate_plain
    revert read
    decide +kernel

example : (Dependency.of "org" "lib" "1.0-2").archiveName =
    (Dependency.of "org" "lib-1.0" "2").archiveName := by
  decide +kernel

end ArchiveName
end ClassAtlas
