import ClassAtlas.Proofs.Descriptor.History
import ClassAtlas.Proofs.Interpolation.Vanishing
import ClassAtlas.Proofs.Resolver.Agreement

/-!
# Identities of resolved modules

A field that is read is not blank, but it may refer to properties whose values are, and
of group and artifact nothing may be left when such references are expanded.  Version
and type are filled in again then.  So a module is fully identified exactly when none
of the names that are written vanishes, which takes a declared property with a blank
value (`isIdentified_of_resolveText`).
-/

namespace ClassAtlas

open Text (isBlankString)

/-- Group, artifact, version and type hold more than blanks. -/
structure Dependency.IsIdentified (dependency : Dependency) : Prop where
  group : ¬isBlankString dependency.group
  artifact : ¬isBlankString dependency.artifact
  version : ¬isBlankString dependency.version
  type : ¬isBlankString dependency.type

/-- The module and all its dependencies tell what they are. -/
structure Module.IsIdentified (module : Module) : Prop where
  group : ¬isBlankString module.group
  artifact : ¬isBlankString module.artifact
  dependencies : ∀ dependency ∈ module.dependencies, dependency.IsIdentified

theorem not_isBlankString_filled {default : String} (solid : ¬isBlankString default)
    (text : Option String) : ¬isBlankString (filled default text) := by
  cases text with
  | none => exact solid
  | some text =>
      by_cases blank : isBlankString text = true
      · rw [filled_of_blank blank]
        exact solid
      · rw [filled_of_not_blank blank]
        exact blank

namespace Descriptor

open Interpolation

/-- The group and the artifact of a declaration that states both. -/
def Declared.names (declared : Declared) : List String :=
  match declared.group, declared.artifact with
  | some group, some artifact => [group, artifact]
  | _, _ => []

/-- The texts of a descriptor that name its module and the dependencies. -/
def names (descriptor : Descriptor) : List String :=
  [descriptor.effectiveGroup, descriptor.artifact].reduceOption ++
    descriptor.dependencies.flatMap Declared.names

section Dependencies

variable {table : PropertyTable} {memory : Memory}

/-- A declaration with group and artifact is resolved to a dependency whose version and
type hold more than blanks. -/
theorem Declared.exists_resolve {declared : Declared} {group artifact : String}
    (isGroup : declared.group = some group) (isArtifact : declared.artifact = some artifact)
    (table : PropertyTable) (memory : Memory) :
    ∃ dependency, (declared.resolve table memory).1 = some dependency ∧
      dependency.group = (expand table memory group).1 ∧
      dependency.artifact = (expand table (expand table memory group).2 artifact).1 ∧
      ¬isBlankString dependency.version ∧ ¬isBlankString dependency.type := by
  obtain ⟨_, _, version, scope, classifier, type, systemPath, optional⟩ := declared
  cases isGroup
  cases isArtifact
  simp only [resolve, of_getD, classifier_or, type_or]
  exact ⟨_, rfl, rfl, rfl, not_isBlankString_filled (by decide) _,
    not_isBlankString_filled (by decide) _⟩

/-- A declaration without group or artifact is resolved to nothing. -/
theorem Declared.resolve_of_unnamed {declared : Declared}
    (unnamed : declared.group = none ∨ declared.artifact = none) (table : PropertyTable)
    (memory : Memory) : (declared.resolve table memory).1 = none ∧ declared.names = [] := by
  obtain ⟨group, artifact, version, scope, classifier, type, systemPath, optional⟩ := declared
  cases group with
  | none => exact ⟨rfl, rfl⟩
  | some group => cases artifact with
    | none => exact ⟨rfl, rfl⟩
    | some artifact => rcases unnamed with absent | absent <;> cases absent

/-- Version and type are filled in, and of group and artifact something is left exactly
when neither of them vanishes. -/
theorem Declared.isIdentified_iff (tells : Tells table memory) (declared : Declared) :
    (∀ dependency ∈ (declared.resolve table memory).1,
      ¬isBlankString dependency.version ∧ ¬isBlankString dependency.type) ∧
    ((∀ dependency ∈ (declared.resolve table memory).1, dependency.IsIdentified) ↔
      ∀ text ∈ declared.names, ¬Vanishes table text) := by
  cases isGroup : declared.group with
  | none =>
      obtain ⟨nothing, unnamed⟩ := resolve_of_unnamed (.inl isGroup) table memory
      simp [nothing, unnamed]
  | some group => cases isArtifact : declared.artifact with
    | none =>
        obtain ⟨nothing, unnamed⟩ := resolve_of_unnamed (.inr isArtifact) table memory
        simp [nothing, unnamed]
    | some artifact =>
        obtain ⟨dependency, resolved, groupEqual, artifactEqual, version, type⟩ :=
          exists_resolve isGroup isArtifact table memory
        obtain ⟨ofGroup, after⟩ := tells.expand group
        obtain ⟨ofArtifact, -⟩ := after.expand artifact
        have names : declared.names = [group, artifact] := by rw [names, isGroup, isArtifact]
        rw [← groupEqual] at ofGroup
        rw [← artifactEqual] at ofArtifact
        rw [resolved, names]
        simp only [Option.mem_some_iff, forall_eq', List.forall_mem_cons, List.not_mem_nil,
          IsEmpty.forall_iff, implies_true, and_true, ← ofGroup, ← ofArtifact]
        refine ⟨⟨version, type⟩, ?_⟩
        constructor
        · intro identified
          exact ⟨identified.group, identified.artifact⟩
        · intro names
          exact ⟨names.1, names.2, version, type⟩

/-- The same of all dependencies of a descriptor. -/
theorem isIdentified_resolveDependencies (tells : Tells table memory)
    (declarations : List Declared) :
    (∀ dependency ∈ resolveDependencies table memory declarations,
      ¬isBlankString dependency.version ∧ ¬isBlankString dependency.type) ∧
    ((∀ dependency ∈ resolveDependencies table memory declarations, dependency.IsIdentified) ↔
      ∀ text ∈ declarations.flatMap Declared.names, ¬Vanishes table text) := by
  induction declarations generalizing memory with
  | nil => simp [resolveDependencies]
  | cons declared rest ih =>
      obtain ⟨filled, identified⟩ := declared.isIdentified_iff tells
      obtain ⟨othersFilled, othersIdentified⟩ :=
        ih (declared.resolve_of_steady steady_tells tells).2
      simp only [resolveDependencies, List.flatMap_cons, List.forall_mem_append,
        Option.mem_toList]
      exact ⟨⟨filled, othersFilled⟩, and_congr identified othersIdentified⟩

end Dependencies

/-! ## Modules -/

section Modules

variable {workingDirectory : Path} {request : Request} {text : String} {module : Module}

theorem exists_of_expandIfPresent {table : PropertyTable} {memory : Memory}
    (tells : Tells table memory) {field : Option String} {expanded : String}
    (isExpanded : (expandIfPresent table memory field).1 = some expanded) :
    ∃ text, field = some text ∧ (isBlankString expanded = true ↔ Vanishes table text) := by
  cases field with
  | none => cases isExpanded
  | some text =>
      cases isExpanded
      exact ⟨text, rfl, (tells.expand text).1⟩

theorem isStated_orElse {first second : Option String} (own : ∀ text ∈ first, IsStated text)
    (inherited : ∀ text ∈ second, IsStated text) :
    ∀ text ∈ first.orElse fun _ => second, IsStated text := by
  cases first with
  | none => exact inherited
  | some text => exact own

section Stated

variable {descriptor : Descriptor} (stated : AreStated descriptor.allFields)

include stated

/-- What a descriptor takes for its own identity is stated there or by the parent. -/
theorem areStated_effective :
    AreStated [descriptor.effectiveGroup, descriptor.artifact, descriptor.effectiveVersion] := by
  obtain ⟨own, ofParent, -⟩ := areStated_allFields_iff.1 stated
  have inherited : ∀ field ∈ [descriptor.parent.bind (·.group), descriptor.parent.bind (·.version)],
      ∀ text ∈ field, IsStated text := by
    cases isParent : descriptor.parent with
    | none => simp
    | some parent =>
        have parent := ofParent parent isParent
        simp only [AreStated, Parent.fields, List.forall_mem_cons] at parent
        simp only [List.forall_mem_cons]
        exact ⟨parent.1, parent.2.2⟩
  simp only [AreStated, List.forall_mem_cons] at own inherited ⊢
  have group := isStated_orElse own.1 inherited.1
  have version := isStated_orElse own.2.2.1 inherited.2.1
  exact ⟨group, own.2.1, version, List.forall_mem_nil _⟩

theorem areStated_aliases : AreStated (descriptor.aliases.map Prod.snd) := by
  have own := areStated_effective stated
  cases isParent : descriptor.parent with
  | none =>
      simp only [aliases, isParent, AreStated, List.map_append, List.map_cons, List.map_nil,
        List.forall_mem_append, List.forall_mem_cons] at own ⊢
      exact ⟨⟨⟨own, own⟩, own⟩, own.2.2.2⟩
  | some parent =>
      have parent := (areStated_allFields_iff.1 stated).2.1 parent isParent
      simp only [aliases, isParent, AreStated, Parent.fields, List.map_append, List.map_cons,
        List.map_nil, List.forall_mem_append, List.forall_mem_cons] at own parent ⊢
      exact ⟨⟨⟨own, own⟩, own⟩, parent⟩

theorem isStated_names : ∀ name ∈ descriptor.names, IsStated name := by
  have own := areStated_effective stated
  intro name member
  rcases List.mem_append.1 member with isOwn | isDeclared
  · have isField := List.reduceOption_mem_iff.1 isOwn
    simp only [AreStated, List.forall_mem_cons] at own
    rcases List.mem_cons.1 isField with isGroup | isArtifact
    · exact own.1 name isGroup.symm
    · exact own.2.1 name (List.mem_singleton.1 isArtifact).symm
  · obtain ⟨declared, isDeclared, isName⟩ := List.mem_flatMap.1 isDeclared
    have fields := (areStated_allFields_iff.1 stated).2.2 declared isDeclared
    simp only [AreStated, Declared.fields, List.forall_mem_cons] at fields
    obtain ⟨group, artifact, -⟩ := fields
    rw [Declared.names] at isName
    split at isName
    · rename_i groupText artifactText isGroup isArtifact
      rcases List.mem_cons.1 isName with rfl | isName
      · exact group name isGroup
      · exact artifact name (List.mem_singleton.1 isName ▸ isArtifact)
    · cases isName

/-- When a name vanishes, some declared property has a blank value. -/
theorem exists_blank_property {name : String} (isName : name ∈ descriptor.names)
    (vanishes : Vanishes descriptor.seededProperties name) :
    ∃ key value, descriptor.properties.get? key = some value ∧ isBlankString value = true := by
  rcases vanishes.exists_blank with blank | ⟨key, value, known, blank⟩
  · exact absurd blank (isStated_names stated name isName).not_blank
  · refine ⟨key, value, ?_, blank⟩
    rw [get?_seededProperties, Option.or_eq_some_iff] at known
    rcases known with isAlias | ⟨-, declared⟩
    · obtain ⟨before, after, shape, -⟩ :=
        List.lookup_eq_some_iff.1 (Option.join_eq_some_iff.1 isAlias)
      have member : some value ∈ descriptor.aliases.map Prod.snd := by
        rw [shape]
        simp
      exact absurd blank (areStated_aliases stated _ member value rfl).not_blank
    · exact declared

end Stated

/-- Every dependency of a resolved module has a version and a type.  The module and its
dependencies are fully identified exactly when no group and no artifact that is written
for them vanishes, and certainly when no declared property has a blank value. -/
theorem isIdentified_of_resolveText
    (resolves : resolveText workingDirectory request text = .ok module) :
    let descriptor := (read text.toList).1
    (∀ dependency ∈ module.dependencies,
      ¬isBlankString dependency.version ∧ ¬isBlankString dependency.type) ∧
    (module.IsIdentified ↔
      ∀ name ∈ descriptor.names, ¬Vanishes descriptor.seededProperties name) ∧
    ((∀ key value, descriptor.properties.get? key = some value → ¬isBlankString value) →
      module.IsIdentified) := by
  intro descriptor
  obtain ⟨isGroup, isArtifact, areDependencies⟩ := of_resolveText resolves
  have start : Tells descriptor.seededProperties [] := tells_nil
  obtain ⟨group, groupStated, ofGroup⟩ := exists_of_expandIfPresent start isGroup
  have after := (steady_tells.expandIfPresent start descriptor.effectiveGroup).2
  obtain ⟨artifact, artifactStated, ofArtifact⟩ := exists_of_expandIfPresent after isArtifact
  obtain ⟨filled, identified⟩ :=
    isIdentified_resolveDependencies start descriptor.dependencies
  rw [← areDependencies] at filled identified
  have names : descriptor.names =
      [group, artifact] ++ descriptor.dependencies.flatMap Declared.names := by
    rw [names, groupStated, artifactStated]
    rfl
  have isExact : module.IsIdentified ↔
      ∀ name ∈ descriptor.names, ¬Vanishes descriptor.seededProperties name := by
    rw [names, List.forall_mem_append, ← identified]
    simp only [List.forall_mem_cons, List.not_mem_nil, IsEmpty.forall_iff, implies_true, and_true]
    constructor
    · intro whole
      exact ⟨⟨mt ofGroup.2 whole.group, mt ofArtifact.2 whole.artifact⟩, whole.dependencies⟩
    · intro parts
      exact ⟨mt ofGroup.1 parts.1.1, mt ofArtifact.1 parts.1.2, parts.2⟩
  refine ⟨filled, isExact, fun solid => isExact.2 ?_⟩
  intro name isName vanishes
  obtain ⟨key, value, known, blank⟩ :=
    exists_blank_property (areStated_read text.toList) isName vanishes
  exact solid key value known blank

end Modules

/-! ### A group that is a property -/

namespace PropertyGroup

/-- A descriptor whose group is a property with this value. -/
def textWith (value : String) : String :=
  "<project><groupId>$\x7bg\x7d</groupId><artifactId>a</artifactId>" ++
    "<properties><g>" ++ value ++ "</g></properties></project>"

/-- What is read from it when this is left of the value. -/
def descriptorWith (value : String) : Descriptor where
  group := some "$\x7bg\x7d"
  artifact := some "a"
  properties := .ofList [("g", value)]

def request : Request := ⟨⟨"m/pom.xml"⟩, .compile, [], none⟩

theorem read_blank : (read (textWith " ").toList).1 = descriptorWith "" := by decide +kernel

theorem read_solid : (read (textWith "org").toList).1 = descriptorWith "org" := by
  decide +kernel

theorem identity_blank :
    (descriptorWith "").identity = ⟨some "", some "a", none, none⟩ := by
  cbv

theorem identity_solid :
    (descriptorWith "org").identity = ⟨some "org", some "a", none, none⟩ := by
  cbv

theorem resolves_blank : ∃ module, resolveText ⟨"/"⟩ request (textWith " ") = .ok module ∧
    module.group = "" := by
  rw [resolveText]
  simp only [read_blank, identity_blank]
  exact ⟨_, rfl, rfl⟩

theorem resolves_solid : ∃ module, resolveText ⟨"/"⟩ request (textWith "org") = .ok module := by
  rw [resolveText]
  simp only [read_solid, identity_solid]
  exact ⟨_, rfl⟩

theorem vanishes_group : Vanishes (descriptorWith "").seededProperties "$\x7bg\x7d" := by
  have tells : Tells (descriptorWith "").seededProperties [] := tells_nil
  have expanded : (expand (descriptorWith "").seededProperties [] "$\x7bg\x7d").1 = "" := by cbv
  apply (tells.expand "$\x7bg\x7d").1.1
  rw [expanded]
  rfl

theorem solid_properties : ∀ key value,
    (descriptorWith "org").properties.get? key = some value → ¬isBlankString value := by
  intro key value known
  have member := KeyedTable.get?_eq_some_iff.1 known
  have entries : (descriptorWith "org").properties.entries = [("g", "org")] := by decide
  rw [entries] at member
  cases List.mem_singleton.1 member
  decide

end PropertyGroup

theorem isIdentified_propertyGroup :
    (∃ module, resolveText ⟨"/"⟩ PropertyGroup.request (PropertyGroup.textWith " ") = .ok module ∧
      ¬module.IsIdentified) ∧
    ∃ module, resolveText ⟨"/"⟩ PropertyGroup.request (PropertyGroup.textWith "org") = .ok module ∧
      module.IsIdentified := by
  constructor
  · obtain ⟨module, resolves, -⟩ := PropertyGroup.resolves_blank
    obtain ⟨-, isExact, -⟩ := isIdentified_of_resolveText resolves
    rw [PropertyGroup.read_blank] at isExact
    refine ⟨module, resolves, fun identified => ?_⟩
    exact isExact.1 identified "$\x7bg\x7d" (by decide) PropertyGroup.vanishes_group
  · obtain ⟨module, resolves⟩ := PropertyGroup.resolves_solid
    obtain ⟨-, -, solid⟩ := isIdentified_of_resolveText resolves
    rw [PropertyGroup.read_solid] at solid
    exact ⟨module, resolves, solid PropertyGroup.solid_properties⟩

/-- A module can be resolved without anything left of its group. -/
theorem not_always_identified :
    ¬∀ (workingDirectory : Path) (request : Request) (text : String) (module : Module),
      resolveText workingDirectory request text = .ok module → module.IsIdentified := by
  intro always
  obtain ⟨module, resolves, group⟩ := PropertyGroup.resolves_blank
  apply (always _ _ _ module resolves).group
  rw [group]
  rfl

end Descriptor
end ClassAtlas
