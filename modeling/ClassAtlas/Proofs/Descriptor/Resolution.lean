import ClassAtlas.Descriptor.Resolution
import ClassAtlas.Proofs.Descriptor.Fields
import ClassAtlas.Proofs.Descriptor.Structural
import ClassAtlas.Proofs.Interpolation.Substitution
import ClassAtlas.Proofs.Text.Blank
import Mathlib

/-!
# Exact resolution

What a text is resolved to, told from the descriptor that is read from it.  Identity
and dependencies are expanded with separate memories; over an acyclic table both
become the substitution of what is written, so that a dependency that refers to the
identity of its own module states the same as the module does.
-/

namespace ClassAtlas

/-- A text that is present and not blank, else a default. -/
def filled (default : String) (text : Option String) : String :=
  (text.filter fun text => !Text.isBlankString text).getD default

theorem filled_of_not_blank {default text : String} (solid : ¬Text.isBlankString text) :
    filled default (some text) = text := by
  simp [filled, Option.filter, solid]

theorem orWhenBlank_eq_filled (default text : String) :
    orWhenBlank default text = filled default (some text) := by
  cases blank : Text.isBlankString text <;> simp [orWhenBlank, filled, Option.filter, blank]

theorem orWhenBlank_getD {default blank : String} (text : Option String)
    (isDefault : orWhenBlank default blank = default) :
    orWhenBlank default (text.getD blank) = filled default text := by
  cases text with
  | none => exact isDefault
  | some text => exact orWhenBlank_eq_filled default text

namespace Descriptor

open Interpolation
open Markup (Name Content)

/-! ## The table of a descriptor -/

theorem get?_foldl_insertIfPresent {additions : List (String × Option String)}
    (distinct : (additions.map Prod.fst).Nodup) (table : PropertyTable) (key : String) :
    (additions.foldl (fun table (key, value) => table.insertIfPresent key value) table).get? key =
      ((additions.lookup key).join).or (table.get? key) := by
  induction additions generalizing table with
  | nil => rfl
  | cons addition rest ih =>
      obtain ⟨name, value⟩ := addition
      rw [List.map_cons, List.nodup_cons] at distinct
      rw [List.foldl_cons, ih distinct.2]
      by_cases same : key = name
      · subst same
        have later : rest.lookup key = none := by
          rw [List.lookup_eq_none_iff]
          intro entry member
          have other : entry.1 ≠ key := fun equal =>
            distinct.1 (List.mem_map.2 ⟨entry, member, equal⟩)
          simpa using Ne.symm other
        rw [later, List.lookup_cons_self]
        cases value <;> simp [KeyedTable.insertIfPresent, KeyedTable.get?_insert]
      · have apart : (key == name) = false := by simpa using same
        rw [List.lookup_cons, apart]
        cases value <;> simp [KeyedTable.insertIfPresent, KeyedTable.get?_insert, same]

theorem nodup_aliases (descriptor : Descriptor) : (descriptor.aliases.map Prod.fst).Nodup := by
  cases parent : descriptor.parent <;>
    simp only [aliases, parent, List.map_append, List.map_cons, List.map_nil] <;> decide

/-- The names for the identity override the declared properties, where there is
something that they can stand for. -/
theorem get?_seededProperties (descriptor : Descriptor) (key : String) :
    descriptor.seededProperties.get? key =
      ((descriptor.aliases.lookup key).join).or (descriptor.properties.get? key) :=
  get?_foldl_insertIfPresent descriptor.nodup_aliases descriptor.properties key

/-- A field that tells which module is meant. -/
inductive Coordinate where
  | group
  | artifact
  | version
  deriving DecidableEq, Repr

namespace Coordinate

/-- The element that holds the field. -/
def element : Coordinate → String
  | .group => "groupId"
  | .artifact => "artifactId"
  | .version => "version"

/-- The names under which a descriptor refers to its own field. -/
def aliases (coordinate : Coordinate) : List String :=
  ["project.", "pom.", ""].map (· ++ coordinate.element)

/-- What a descriptor states for its own module. -/
def stated (descriptor : Descriptor) : Coordinate → Option String
  | .group => descriptor.effectiveGroup
  | .artifact => descriptor.artifact
  | .version => descriptor.effectiveVersion

/-- The field of a module. -/
def ofModule (module : Module) : Coordinate → String
  | .group => module.group
  | .artifact => module.artifact
  | .version => module.version

/-- What is declared for a dependency. -/
def declared (declared : Declared) : Coordinate → Option String
  | .group => declared.group
  | .artifact => declared.artifact
  | .version => declared.version

/-- The field of a dependency. -/
def ofDependency (dependency : Dependency) : Coordinate → String
  | .group => dependency.group
  | .artifact => dependency.artifact
  | .version => dependency.version

/-- A text that is just a reference to the own field of the descriptor. -/
def IsReference (coordinate : Coordinate) (text : String) : Prop :=
  ∃ inside, text.toList = written inside ∧ keyOf inside ∈ coordinate.aliases

theorem lookup_aliases {coordinate : Coordinate} {key : String}
    (isAlias : key ∈ coordinate.aliases) (descriptor : Descriptor) :
    descriptor.aliases.lookup key = some (coordinate.stated descriptor) := by
  cases coordinate <;>
    simp only [aliases, element, List.map_cons, List.map_nil, List.mem_cons,
      List.not_mem_nil, or_false] at isAlias <;>
    rcases isAlias with rfl | rfl | rfl <;> rfl

/-- An alias stands for what is stated, whatever properties are declared. -/
theorem get?_seededProperties {coordinate : Coordinate} {key raw : String}
    {descriptor : Descriptor} (isAlias : key ∈ coordinate.aliases)
    (isStated : coordinate.stated descriptor = some raw) :
    descriptor.seededProperties.get? key = some raw := by
  rw [Descriptor.get?_seededProperties, lookup_aliases isAlias, isStated]
  rfl

theorem closing_not_mem_alias {coordinate : Coordinate} {key : String}
    (isAlias : key ∈ coordinate.aliases) : '\x7d' ∉ key.toList := by
  cases coordinate <;>
    simp only [aliases, element, List.map_cons, List.map_nil, List.mem_cons,
      List.not_mem_nil, or_false] at isAlias <;>
    rcases isAlias with rfl | rfl | rfl <;> decide

/-- A reference to a field of the descriptor itself expands to what the field does. -/
theorem IsReference.substituteIn_eq {coordinate : Coordinate} {text raw : String}
    {descriptor : Descriptor} {rank : String → Nat}
    {descends : Descends descriptor.seededProperties rank}
    (reference : coordinate.IsReference text)
    (isStated : coordinate.stated descriptor = some raw)
    (short : Text.byteLength (substituteIn descends raw).toList ≤ longestExpansion) :
    substituteIn descends text = substituteIn descends raw := by
  obtain ⟨inside, shape, isAlias⟩ := reference
  have closed : '\x7d' ∉ inside := by
    intro member
    apply closing_not_mem_alias isAlias
    rw [keyOf, String.toList_ofList]
    exact Text.mem_trim member rfl
  exact substituteIn_written shape closed (get?_seededProperties isAlias isStated) short

end Coordinate

/-! ## Identity and dependencies -/

section Expansion

variable {descriptor : Descriptor} {table : PropertyTable} {rank : String → Nat}

theorem identity_eq (descends : Descends descriptor.seededProperties rank) :
    descriptor.identity =
      { group := descriptor.effectiveGroup.map (substituteIn descends)
        artifact := descriptor.artifact.map (substituteIn descends)
        version := descriptor.effectiveVersion.map (substituteIn descends)
        packaging := descriptor.packaging.map (substituteIn descends) } := by
  have start : Sound descends [] := sound_nil
  obtain ⟨group, sound⟩ := start.expandIfPresent descriptor.effectiveGroup
  obtain ⟨artifact, sound⟩ := sound.expandIfPresent descriptor.artifact
  obtain ⟨version, sound⟩ := sound.expandIfPresent descriptor.effectiveVersion
  obtain ⟨packaging, _⟩ := sound.expandIfPresent descriptor.packaging
  rw [← group, ← artifact, ← version, ← packaging]
  rfl

/-- The dependency for which a declaration stands when its texts are expanded. -/
def Declared.expected (expansion : String → String) (declared : Declared) :
    Option Dependency := do
  let group ← declared.group
  let artifact ← declared.artifact
  some {
    group := expansion group
    artifact := expansion artifact
    version := filled unknownVersion (declared.version.map expansion)
    classifier := (declared.classifier.map expansion).filter fun classifier =>
      !Text.isBlankString classifier
    type := filled "jar" (declared.type.map expansion)
    scope := ((declared.scope.map expansion).bind fun scope =>
      (Scope.parse scope).toOption).getD .compile
    optional := declared.optional
    systemPath := declared.systemPath.map expansion }

theorem ofDeclared_eq (text : Option String) :
    Scope.ofDeclared text =
      (text.bind fun scope => (Scope.parse scope).toOption).getD .compile := by
  cases text with
  | none => rfl
  | some text =>
      simp only [Scope.ofDeclared, Option.map_some, Option.bind_some]
      cases Scope.parse text <;> rfl

theorem of_getD (group artifact : String) (version : Option String) :
    Dependency.of group artifact (version.getD unknownVersion) =
      { group, artifact, version := filled unknownVersion version } := by
  have isDefault : orWhenBlank unknownVersion unknownVersion = unknownVersion := by decide
  rw [Dependency.of, orWhenBlank_getD version isDefault]

theorem classifier_or (group artifact version : String) (classifier : Option String) :
    (classifier.map (Dependency.mk group artifact version none "jar" .compile false none
      none).withClassifier).getD { group, artifact, version } =
      { group, artifact, version
        classifier := classifier.filter fun classifier =>
          !Text.isBlankString classifier } := by
  cases classifier with
  | none => rfl
  | some classifier =>
      cases blank : Text.isBlankString classifier <;>
        simp [Dependency.withClassifier, Option.filter, blank]

theorem type_or (dependency : Dependency) (type : Option String) :
    (type.map dependency.withType).getD dependency =
      { dependency with type := filled dependency.type type } := by
  cases type with
  | none => rfl
  | some type => simp [Dependency.withType, orWhenBlank_eq_filled]

/-- With a memory that is kept steady, a declaration is resolved to what it stands for. -/
theorem Declared.resolve_of_steady {keeps : Memory → Prop} {stands : String → Prop}
    {expansion : String → String} (steady : Steady table keeps stands expansion)
    {memory : Memory} (start : keeps memory) (declared : Declared) :
    ((∀ field ∈ declared.fields, ∀ text ∈ field, stands text) →
      (declared.resolve table memory).1 = declared.expected expansion) ∧
      keeps (declared.resolve table memory).2 := by
  obtain ⟨group, artifact, version, scope, classifier, type, systemPath, optional⟩ := declared
  cases group with
  | none => exact ⟨fun _ => rfl, start⟩
  | some group =>
      have afterGroup := steady.kept start group
      cases artifact with
      | none => exact ⟨fun _ => rfl, afterGroup⟩
      | some artifact =>
          have afterArtifact := steady.kept afterGroup artifact
          obtain ⟨isVersion, afterVersion⟩ := steady.expandIfPresent afterArtifact version
          obtain ⟨isScope, afterScope⟩ := steady.expandIfPresent afterVersion scope
          obtain ⟨isClassifier, afterClassifier⟩ :=
            steady.expandIfPresent afterScope classifier
          obtain ⟨isType, afterType⟩ := steady.expandIfPresent afterClassifier type
          obtain ⟨isSystemPath, afterAll⟩ := steady.expandIfPresent afterType systemPath
          refine ⟨fun stand => ?_, afterAll⟩
          simp only [fields, List.forall_mem_cons, Option.mem_some_iff, forall_eq'] at stand
          obtain ⟨ofGroup, ofArtifact, ofVersion, ofScope, ofClassifier, ofType, ofSystemPath,
            -⟩ := stand
          simp only [resolve, steady.equal start group ofGroup,
            steady.equal afterGroup artifact ofArtifact, isVersion ofVersion, isScope ofScope,
            isClassifier ofClassifier, isType ofType, isSystemPath ofSystemPath, of_getD,
            classifier_or, type_or, ofDeclared_eq, expected, Option.bind_eq_bind,
            Option.bind_some]

/-- A declaration is resolved to what it stands for, whatever was expanded before. -/
theorem Declared.resolve_eq {descends : Descends table rank} {memory : Memory}
    (sound : Sound descends memory) (declared : Declared) :
    (declared.resolve table memory).1 = declared.expected (substituteIn descends) ∧
      Sound descends (declared.resolve table memory).2 := by
  obtain ⟨equal, after⟩ := declared.resolve_of_steady (steady_sound descends) sound
  exact ⟨equal fun _ _ _ _ => trivial, after⟩

theorem resolveDependencies_eq {descends : Descends table rank} {memory : Memory}
    (sound : Sound descends memory) (declarations : List Declared) :
    resolveDependencies table memory declarations =
      declarations.filterMap (Declared.expected (substituteIn descends)) := by
  induction declarations generalizing memory with
  | nil => rfl
  | cons declared rest ih =>
      obtain ⟨equal, after⟩ := declared.resolve_eq sound
      simp only [resolveDependencies, ih after, equal]
      cases known : declared.expected (substituteIn descends) with
      | none => rw [List.filterMap_cons_none known]; rfl
      | some dependency => rw [List.filterMap_cons_some known]; rfl

end Expansion

/-! ## Modules -/

/-- The fields without which a descriptor does not tell its module. -/
def missing (descriptor : Descriptor) : List IdentityField :=
  (if descriptor.effectiveGroup.isNone then [.group] else []) ++
    (if descriptor.artifact.isNone then [.artifact] else [])

/-- The module states what the descriptor does when its texts are expanded. -/
structure States (descriptor : Descriptor) (expansion : String → String) (module : Module) :
    Prop where
  group : some module.group = descriptor.effectiveGroup.map expansion
  artifact : some module.artifact = descriptor.artifact.map expansion
  version : module.version = filled unknownVersion (descriptor.effectiveVersion.map expansion)
  packaging : module.packaging = filled "jar" (descriptor.packaging.map expansion)
  dependencies :
    module.dependencies = descriptor.dependencies.filterMap (Declared.expected expansion)

/-- A dependency takes over a field of the module where a short text is stated for it
and the declaration is just a reference to it.  A field of another kind is taken over
unless it is blank, where defaults may differ. -/
def Follows (descriptor : Descriptor) (expansion : String → String) (module : Module)
    (declared : Declared) (dependency : Dependency) : Prop :=
  ∀ place coordinate : Coordinate, ∀ text raw,
    place.declared declared = some text → coordinate.IsReference text →
    coordinate.stated descriptor = some raw →
    Text.byteLength (expansion raw).toList ≤ longestExpansion →
    place = coordinate ∨ ¬Text.isBlankString (expansion raw) →
    place.ofDependency dependency = coordinate.ofModule module

namespace Coordinate

/-- What becomes of an expanded field: only a version has a default. -/
def settled (expanded : String) : Coordinate → String
  | .group | .artifact => expanded
  | .version => filled unknownVersion (some expanded)

theorem settled_of_not_blank {expanded : String} (solid : ¬Text.isBlankString expanded)
    (coordinate : Coordinate) : coordinate.settled expanded = expanded := by
  cases coordinate with
  | group => rfl
  | artifact => rfl
  | version => exact filled_of_not_blank solid

variable {descriptor : Descriptor} {expansion : String → String} {module : Module}

theorem ofModule_eq (states : descriptor.States expansion module) {coordinate : Coordinate}
    {raw : String} (isStated : coordinate.stated descriptor = some raw) :
    coordinate.ofModule module = coordinate.settled (expansion raw) := by
  cases coordinate with
  | group =>
      have equal := states.group
      rw [show descriptor.effectiveGroup = some raw from isStated] at equal
      exact Option.some.inj equal
  | artifact =>
      have equal := states.artifact
      rw [show descriptor.artifact = some raw from isStated] at equal
      exact Option.some.inj equal
  | version =>
      have equal := states.version
      rwa [show descriptor.effectiveVersion = some raw from isStated] at equal

theorem ofDependency_eq {declared : Declared} {dependency : Dependency}
    (isExpected : declared.expected expansion = some dependency) {coordinate : Coordinate}
    {text : String} (isDeclared : coordinate.declared declared = some text) :
    coordinate.ofDependency dependency = coordinate.settled (expansion text) := by
  simp only [Declared.expected, Option.bind_eq_bind, Option.bind_eq_some_iff,
    Option.some.injEq] at isExpected
  obtain ⟨group, isGroup, artifact, isArtifact, rfl⟩ := isExpected
  cases coordinate with
  | group => exact congrArg expansion (Option.some.inj (isGroup.symm.trans isDeclared))
  | artifact => exact congrArg expansion (Option.some.inj (isArtifact.symm.trans isDeclared))
  | version =>
      have isVersion : declared.version = some text := isDeclared
      simp only [ofDependency, settled, isVersion, Option.map_some]

end Coordinate

/-- Over an acyclic table a dependency is expanded to what the module itself states. -/
theorem States.follows {descriptor : Descriptor} {module : Module} {rank : String → Nat}
    {descends : Descends descriptor.seededProperties rank}
    (states : descriptor.States (substituteIn descends) module) {declared : Declared}
    {dependency : Dependency}
    (isExpected : declared.expected (substituteIn descends) = some dependency) :
    Follows descriptor (substituteIn descends) module declared dependency := by
  intro place coordinate text raw isDeclared reference isStated short apart
  rw [Coordinate.ofDependency_eq isExpected isDeclared, Coordinate.ofModule_eq states isStated,
    reference.substituteIn_eq isStated short]
  rcases apart with same | solid
  · rw [same]
  · rw [Coordinate.settled_of_not_blank solid, Coordinate.settled_of_not_blank solid]

theorem isNone_expandIfPresent (table : PropertyTable) (memory : Memory)
    (text : Option String) : (expandIfPresent table memory text).1.isNone = text.isNone := by
  cases text <;> rfl

/-- What is missing is missing in the expanded identity too. -/
theorem missing_eq (descriptor : Descriptor) :
    descriptor.missing =
      (if descriptor.identity.group.isNone then [.group] else []) ++
        (if descriptor.identity.artifact.isNone then [.artifact] else []) := by
  simp only [missing, identity, isNone_expandIfPresent]

/-- The module that is built from the expanded descriptor. -/
theorem states_build {descriptor : Descriptor} {rank : String → Nat}
    (descends : Descends descriptor.seededProperties rank) {group artifact : String}
    (isGroup : descriptor.identity.group = some group)
    (isArtifact : descriptor.identity.artifact = some artifact) (draft : Module.Draft) :
    descriptor.States (substituteIn descends)
      { draft with
        group, artifact
        version := descriptor.identity.version
        packaging := descriptor.identity.packaging
        modules := descriptor.modules
        dependencies :=
          resolveDependencies descriptor.seededProperties [] descriptor.dependencies
        : Module.Draft }.build := by
  have identity := identity_eq descends
  constructor
  case group => exact isGroup.symm.trans (congrArg Identity.group identity)
  case artifact => exact isArtifact.symm.trans (congrArg Identity.artifact identity)
  case version =>
      have equal := congrArg (filled unknownVersion) (congrArg Identity.version identity)
      exact (orWhenBlank_getD _ rfl).trans equal
  case packaging =>
      have equal := congrArg (filled "jar") (congrArg Identity.packaging identity)
      exact (orWhenBlank_getD _ rfl).trans equal
  case dependencies => exact resolveDependencies_eq sound_nil descriptor.dependencies

section Module

variable {workingDirectory : Path} {request : Request} {text : String} {module : Module}

/-- What the module of a text takes from the descriptor that is read. -/
theorem of_resolveText (resolves : resolveText workingDirectory request text = .ok module) :
    (read text.toList).1.identity.group = some module.group ∧
      (read text.toList).1.identity.artifact = some module.artifact ∧
      module.dependencies = resolveDependencies (read text.toList).1.seededProperties []
        (read text.toList).1.dependencies := by
  rw [resolveText] at resolves
  dsimp only at resolves
  split at resolves
  · rename_i group artifact isGroup isArtifact
    cases resolves
    exact ⟨isGroup, isArtifact, rfl⟩
  · cases resolves

/-- A text that states group and artifact has a module. -/
theorem exists_resolveText (complete : (read text.toList).1.missing = []) :
    ∃ module, resolveText workingDirectory request text = .ok module := by
  rw [missing_eq] at complete
  simp only [resolveText]
  cases isGroup : (read text.toList).1.identity.group with
  | none => simp [isGroup] at complete
  | some group => cases isArtifact : (read text.toList).1.identity.artifact with
    | none => simp [isGroup, isArtifact] at complete
    | some artifact => exact ⟨_, rfl⟩

end Module

/-- A module comes out exactly when group and artifact are stated, over any table.  Over
an acyclic one it states what the descriptor does with all references substituted, and
its dependencies follow it where they refer to it. -/
theorem resolveText_exact (workingDirectory : Path) (request : Request) (text : String) :
    let descriptor := (read text.toList).1
    (descriptor.missing ≠ [] → resolveText workingDirectory request text =
      .error (.identityMissing request.descriptor descriptor.missing)) ∧
    (descriptor.missing = [] → ∃ module,
      resolveText workingDirectory request text = .ok module ∧
      ∀ (rank : String → Nat) (descends : Descends descriptor.seededProperties rank),
        descriptor.States (substituteIn descends) module ∧
        ∀ declared ∈ descriptor.dependencies, ∀ dependency,
          declared.expected (substituteIn descends) = some dependency →
          Follows descriptor (substituteIn descends) module declared dependency) := by
  intro descriptor
  have absent := descriptor.missing_eq
  simp only [resolveText]
  cases group : descriptor.identity.group with
  | none =>
      rw [group] at absent
      refine ⟨fun _ => ?_, fun complete => ?_⟩
      · rw [absent]
      · simp [absent] at complete
  | some groupText =>
      cases artifact : descriptor.identity.artifact with
      | none =>
          rw [group, artifact] at absent
          refine ⟨fun _ => ?_, fun complete => ?_⟩
          · rw [absent]
          · simp [absent] at complete
      | some artifactText =>
          rw [group, artifact] at absent
          refine ⟨fun incomplete => absurd absent incomplete, fun _ => ⟨_, rfl, ?_⟩⟩
          intro rank descends
          have states := states_build descends group artifact (request.draft workingDirectory)
          exact ⟨states, fun declared _ dependency => states.follows⟩

/-! ### A dependency on the module's own version -/

namespace Referring

/-- A leaf right behind what stands before it. -/
def leaf (name : Name) (value : Markup.Value) (rest : Content) : Content :=
  .leaf ⟨[], by decide⟩ name value rest

def group : Name := ⟨"groupId".toList, rfl, rfl⟩
def artifact : Name := ⟨"artifactId".toList, rfl, rfl⟩
def version : Name := ⟨"version".toList, rfl, rfl⟩

/-- A list of one dependency with the group and the version of the module. -/
def dependencies : Content :=
  .block ⟨[], by decide⟩ ⟨"dependencies".toList, rfl, rfl⟩
    (.block ⟨[], by decide⟩ ⟨"dependency".toList, rfl, rfl⟩
      (leaf group ⟨"$\x7bproject.groupId\x7d".toList, nofun, rfl, rfl⟩ <|
        leaf artifact ⟨"core".toList, nofun, rfl, rfl⟩ <|
        leaf version ⟨"$\x7b version \x7d".toList, nofun, rfl, rfl⟩
          (.last ⟨[], by decide⟩))
      (.last ⟨[], by decide⟩)) (.last ⟨[], by decide⟩)

/-- What the list declares. -/
def declared : Declared where
  group := some "$\x7bproject.groupId\x7d"
  artifact := some "core"
  version := some "$\x7b version \x7d"

/-- A module whose version is a property. -/
def document : Document where
  content :=
    leaf group ⟨"org".toList, nofun, rfl, rfl⟩ <|
    leaf artifact ⟨"lib".toList, nofun, rfl, rfl⟩ <|
    leaf version ⟨"$\x7bv\x7d".toList, nofun, rfl, rfl⟩ <|
    .block ⟨[], by decide⟩ ⟨"properties".toList, rfl, rfl⟩
      (leaf ⟨"v".toList, rfl, rfl⟩
        ⟨"1.0".toList, nofun, rfl, rfl⟩ (.last ⟨[], by decide⟩)) dependencies
  fits := by decide
  modulesOnce := by decide
  dependenciesOnce := by decide

/-- The property stands below the names that refer to it. -/
def rank (key : String) : Nat := if key = "v" then 0 else 1

theorem descends : Descends document.managed.seededProperties rank := by decide +kernel

theorem read_text : (read (String.ofList document.text).toList).1 = document.managed := by
  rw [String.toList_ofList, read, Document.parse?_text, if_pos (by decide)]

theorem substituteIn_eq {text expanded : String}
    (expands : (expand document.managed.seededProperties [] text).1 = expanded) :
    substituteIn descends text = expanded :=
  ((sound_nil : Sound descends []).expand text).1.symm.trans expands

theorem group_eq : substituteIn descends "org" = "org" := substituteIn_eq (by cbv)

theorem version_eq : substituteIn descends "$\x7bv\x7d" = "1.0" := substituteIn_eq (by cbv)

end Referring

theorem resolveText_referring :
    ∃ module dependency, resolveText ⟨"/"⟩ ⟨⟨"/pom.xml"⟩, .compile, [], none⟩
        (String.ofList Referring.document.text) = .ok module ∧
      module.version = "1.0" ∧ module.dependencies = [dependency] ∧
      dependency.group = module.group ∧ dependency.version = module.version := by
  have exact := resolveText_exact ⟨"/"⟩ ⟨⟨"/pom.xml"⟩, .compile, [], none⟩
    (String.ofList Referring.document.text)
  generalize same : (read (String.ofList Referring.document.text).toList).1 = descriptor at exact
  obtain rfl : Referring.document.managed = descriptor := Referring.read_text.symm.trans same
  obtain ⟨module, resolved, exact⟩ := exact.2 (by decide)
  obtain ⟨states, follows⟩ := exact Referring.rank Referring.descends
  have version : module.version = "1.0" := by
    have equal := states.version
    have stated : Referring.document.managed.effectiveVersion = some "$\x7bv\x7d" := by decide
    rw [stated, Option.map_some, Referring.version_eq] at equal
    exact equal.trans (by decide)
  obtain ⟨dependency, isExpected, single⟩ : ∃ dependency,
      Referring.declared.expected (substituteIn Referring.descends) = some dependency ∧
        module.dependencies = [dependency] := ⟨_, rfl, states.dependencies⟩
  have follow := follows Referring.declared (by decide) dependency isExpected
  refine ⟨module, dependency, resolved, version, single, ?_, ?_⟩
  · apply follow .group .group _ "org" rfl ⟨"project.groupId".toList, by decide, by decide⟩
    · decide
    · rw [Referring.group_eq]
      decide
    · exact .inl rfl
  · apply follow .version .version _ "$\x7bv\x7d" rfl ⟨" version ".toList, by decide, by decide⟩
    · decide
    · rw [Referring.version_eq]
      decide
    · exact .inl rfl

end Descriptor
end ClassAtlas
