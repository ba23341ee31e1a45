import ClassAtlas.Proofs.ClassIndex.Views
import ClassAtlas.Proofs.FileTree.Following
import ClassAtlas.Proofs.Text.Cut

/-!
# What a scan finds

A part of a classpath offers the classes that the names of its entries decode to.  The facts
that a scan adds say no more and no less: that there is each class offered
(`holds_mem_findings`), and, for an archive, that the package of each belongs to the
dependency that the archive is named for (`owned_mem_findings`).  That entries which end in a
separator are passed over is no restriction, since none of them decodes to a class.
-/

namespace ClassAtlas

/-! ## Names of entries -/

theorem Text.suffix_of_beforeEnd? {mark text before : List Char}
    (found : beforeEnd? mark text = some before) : mark <:+ text := by
  rw [beforeEnd?_eq_some_iff.1 found]
  exact List.suffix_append before mark

namespace ClassName

theorem belowRoot_suffix (name : List Char) : belowRoot name <:+ name := by
  rw [belowRoot]
  cases found : classRoots.findSome? fun root => root.isPrefixOf? name with
  | none => exact List.suffix_refl name
  | some rest =>
      obtain ⟨root, _, begins⟩ := List.exists_of_findSome?_eq_some found
      exact ⟨root, (Text.isPrefixOf?_eq_some begins).symm⟩

/-- An entry that holds a class ends in the suffix. -/
theorem suffix_of_ofEntry? {suffix entry : List Char} {name : ClassName}
    (decoded : ofEntry? suffix entry = some name) : suffix <:+ entry := by
  rw [ ofEntry?] at decoded
  simp only [Option.bind_eq_bind] at decoded
  split at decoded
  · exact nomatch decoded
  · obtain ⟨stem, ends, _⟩ := Option.bind_eq_some_iff.1 decoded
    exact (Text.suffix_of_beforeEnd? ends).trans
      ((belowRoot_suffix _).trans (List.dropWhile_suffix _))

end ClassName

namespace Scan

variable {files : FileTree} {scan : Scan}

/-! ## What there is to read -/

/-- The names of all entries of the part of the classpath, unless it cannot be read. -/
def entries? (files : FileTree) (scan : Scan) : Option (List (List Char)) :=
  match scan.kind with
  | .directory =>
      (files.filesBelow? scan.path).map fun names =>
        names.map fun segments => ("/".intercalate segments).toList
  | _ => (files.archiveEntries? scan.path).map fun entries => entries.map String.toList

/-- The part of the classpath can be read. -/
def isReadable (files : FileTree) (scan : Scan) : Bool :=
  (scan.entries? files).isSome

/-- The part of the classpath can be read and has an entry that decodes to the class. -/
def Offers (files : FileTree) (scan : Scan) (name : ClassName) : Prop :=
  ∃ entries, scan.entries? files = some entries ∧
    ∃ entry ∈ entries, ClassName.ofEntry? scan.suffix entry = some name

/-- How many entries decode to a class. -/
def mapped (files : FileTree) (scan : Scan) : Nat :=
  ((scan.entries? files).getD []).countP fun entry =>
    (ClassName.ofEntry? scan.suffix entry).isSome

/-- An entry that decodes to a class is no directory. -/
theorem getLast?_of_ofEntry? {scan : Scan} {entry : List Char} {name : ClassName}
    (decoded : ClassName.ofEntry? scan.suffix entry = some name) :
    entry.getLast? ≠ some '/' := by
  obtain ⟨front, split⟩ := ClassName.suffix_of_ofEntry? decoded
  have ends : scan.suffix = classSuffix ∨ scan.suffix = sourceSuffix := by
    rw [suffix]
    split
    · exact .inr rfl
    · exact .inl rfl
  rw [← split]
  rcases ends with isClass | isSource
  · rw [isClass, List.getLast?_append_of_ne_nil front (by decide)]
    decide
  · rw [isSource, List.getLast?_append_of_ne_nil front (by decide)]
    decide

theorem filterMap_archiveFiles (entries : List String) :
    ((entries.map String.toList).filter fun entry => entry.getLast? != some '/').filterMap
        (ClassName.ofEntry? scan.suffix) =
      (entries.map String.toList).filterMap (ClassName.ofEntry? scan.suffix) := by
  rw [List.filterMap_filter]
  refine List.filterMap_congr fun entry _ => ?_
  split
  · rfl
  · rename_i isDirectory
    refine (Option.eq_none_iff_forall_not_mem.2 fun name decoded => ?_).symm
    exact isDirectory (by simpa using getLast?_of_ofEntry? decoded)

/-- The classes found are those that the entries decode to. -/
theorem classes?_eq (files : FileTree) (scan : Scan) :
    scan.classes? files =
      (scan.entries? files).map fun entries =>
        entries.filterMap (ClassName.ofEntry? scan.suffix) := by
  rw [classes?, names?, entries?]
  cases scan.kind with
  | directory => rw [directoryFiles?]
  | archive | sources =>
      dsimp only
      rw [archiveFiles?, Option.map_map, Option.map_map]
      exact congrArg (Option.map · _) (funext fun entries => filterMap_archiveFiles entries)

theorem mem_classes {name : ClassName} :
    name ∈ (scan.classes? files).getD [] ↔ scan.Offers files name := by
  rw [classes?_eq, Offers]
  cases scan.entries? files with
  | none => simp
  | some entries => simp

theorem isSome_classes? (scan : Scan) :
    (scan.classes? files).isSome = scan.isReadable files := by
  rw [classes?_eq, Option.isSome_map, isReadable]

theorem length_classes? (scan : Scan) :
    ((scan.classes? files).map List.length).getD 0 = scan.mapped files := by
  rw [classes?_eq, mapped]
  cases scan.entries? files with
  | none => rfl
  | some entries => exact List.length_filterMap_eq_countP

/-! ## Facts -/

@[simp] theorem holds_mem_findingsOf {owner : Option String} {name other : ClassName} :
    .holds other ∈ findingsOf owner name ↔ other = name := by
  cases owner <;> simp [findingsOf]

@[simp] theorem owned_mem_findingsOf {owner : Option String} {name : ClassName}
    {package dependency : String} :
    .owned package dependency ∈ findingsOf owner name ↔
      package = name.package ∧ owner = some dependency := by
  cases owner <;> simp [findingsOf, eq_comm]

/-- A scan states that there is a class exactly when its part of the classpath offers it. -/
theorem holds_mem_findings {name : ClassName} :
    .holds name ∈ scan.findings files ↔ scan.Offers files name := by
  rw [findings, List.mem_flatMap, ← mem_classes]
  constructor
  · rintro ⟨other, member, stated⟩
    rw [holds_mem_findingsOf] at stated
    exact stated ▸ member
  · exact fun member => ⟨name, member, holds_mem_findingsOf.2 rfl⟩

/-- A scan states that a package belongs to a dependency exactly when it scans an archive
that is named for the dependency and offers a class of the package. -/
theorem owned_mem_findings {package owner : String} :
    .owned package owner ∈ scan.findings files ↔
      scan.owner? = some owner ∧ ∃ simple, scan.Offers files ⟨package, simple⟩ := by
  simp only [findings, List.mem_flatMap, ← mem_classes, owned_mem_findingsOf]
  constructor
  · rintro ⟨⟨_, simple⟩, member, rfl, named⟩
    exact ⟨named, simple, member⟩
  · rintro ⟨named, simple, member⟩
    exact ⟨⟨package, simple⟩, member, rfl, named⟩

/-- An archive that can be read is named for a dependency. -/
theorem exists_owner {path : Path} {entries : List (List Char)}
    (readable : entries? files ⟨.archive, path⟩ = some entries) :
    ∃ owner, ArchiveName.dependencyName? path = some owner := by
  obtain ⟨names, read, _⟩ := Option.map_eq_some_iff.1 readable
  rw [FileTree.archiveEntries?] at read
  split at read
  · rename_i file isFile
    rw [FileTree.read] at isFile
    split at isFile
    · rename_i place other found
      obtain ⟨name, named⟩ := FileTree.exists_fileName found
      rw [ArchiveName.dependencyName?, Path.stem?, named]
      exact ⟨_, rfl⟩
    · exact nomatch isFile
    · exact nomatch isFile
  · exact nomatch read

end Scan
end ClassAtlas
