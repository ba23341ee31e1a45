import ClassAtlas.Proofs.Descriptor.Resolution

/-!
# Managed versions

A dependency without a version takes the last one that the dependency management states
for its coordinates.  Coordinates are compared as they are written: the management is
applied when the descriptor is read, and references are expanded later.  So the version
that is found is expanded (`resolveText_managed`), but two spellings of the same
coordinates are not taken for the same (`not_managed_by_expansion`).
-/

namespace ClassAtlas.Descriptor

open Interpolation
open Markup (Node)

/-- The project element of a well-formed descriptor. -/
def project? (text : List Char) : Option Node :=
  (Node.ofText? (withoutForeignEntities text)).bind fun document => document.find? "project"

/-- The entries of a project's dependency management. -/
def managementOf (project : Node) : List Declared :=
  ((project.child? "dependencyManagement").map dependenciesOf).getD []

/-- The entry states a version for these coordinates as they are written. -/
def Declared.IsFor (group artifact : String) (entry : Declared) : Prop :=
  entry.group = some group ∧ entry.artifact = some artifact

/-- Of the entries that are meant, the last one with a version states this version. -/
def LastStates (management : List Declared) (isMeant : Declared → Prop) (version : String) :
    Prop :=
  ∃ before entry after, management = before ++ entry :: after ∧ isMeant entry ∧
    entry.version = some version ∧ ∀ later ∈ after, isMeant later → later.version = none

section Reading

variable {project : Node} {text : List Char} {management : List Declared} {declared : Declared}

theorem parse?_eq (text : List Char) : parse? text = (project? text).map ofProject := by
  rw [parse?, project?, Option.map_bind]
  rfl

theorem read_of_project (isProject : project? text = some project) :
    (read text).1 = ofProject project := by
  have parsed := parse?_eq text
  rw [isProject] at parsed
  rw [read, parsed]
  rfl

theorem managedOf_eq (project : Node) :
    managedOf project = ((managementOf project).filterMap Managed.of?).reverse := by
  rw [managedOf, managementOf]
  cases project.child? "dependencyManagement" with
  | none => rfl
  | some management => rfl

/-- What a declaration stands for is the same whether it is managed or inherits. -/
theorem expected_manage (expansion : String → String) (declared : Declared) :
    (declared.manage (management.filterMap Managed.of?).reverse).expected expansion =
      (declared.inherit management).expected expansion := by
  by_cases named : declared.group.isSome ∧ declared.artifact.isSome
  · rw [manage_eq_inherit named.1 named.2]
  · obtain ⟨group, artifact, version, scope, classifier, type, systemPath, optional⟩ := declared
    cases group with
    | none => cases version <;> rfl
    | some group => cases artifact with
      | none => cases version <;> rfl
      | some artifact => exact absurd ⟨rfl, rfl⟩ named

theorem getLast?_filterMap_eq_some_iff {α β : Type} {select : α → Option β} {list : List α}
    {found : β} :
    (list.filterMap select).getLast? = some found ↔
      ∃ before entry after, list = before ++ entry :: after ∧ select entry = some found ∧
        ∀ later ∈ after, select later = none := by
  rw [← List.head?_reverse, ← List.filterMap_reverse, List.head?_filterMap,
    List.findSome?_eq_some_iff]
  constructor
  · rintro ⟨after, entry, before, shape, isFound, others⟩
    refine ⟨before.reverse, entry, after.reverse, ?_, isFound, ?_⟩
    · rw [List.reverse_eq_iff.1 shape]
      simp
    · intro later member
      exact others later (List.mem_reverse.1 member)
  · rintro ⟨before, entry, after, rfl, isFound, others⟩
    refine ⟨after.reverse, entry, before.reverse, by simp, isFound, ?_⟩
    intro later member
    exact others later (List.mem_reverse.1 member)

/-- A declaration without a version inherits the last that is stated for its coordinates. -/
theorem version_inherit {group artifact : String} (isGroup : declared.group = some group)
    (isArtifact : declared.artifact = some artifact) (versionless : declared.version = none)
    (version : String) :
    (declared.inherit management).version = some version ↔
      LastStates management (Declared.IsFor group artifact) version := by
  have isFor : ∀ entry : Declared, (entry.group == declared.group &&
      entry.artifact == declared.artifact) = true ↔ entry.IsFor group artifact := by
    intro entry
    rw [isGroup, isArtifact, Bool.and_eq_true, beq_iff_eq, beq_iff_eq, Declared.IsFor]
  have selected : (declared.inherit management).version =
      (management.filterMap fun entry => if entry.group == declared.group &&
        entry.artifact == declared.artifact then entry.version else none).getLast? := by
    rw [Declared.inherit, versionless, List.filterMap_filter]
    rfl
  rw [selected, getLast?_filterMap_eq_some_iff]
  simp only [isFor, Option.ite_none_right_eq_some, LastStates, ite_eq_right_iff, and_assoc]

/-- A declaration without a version inherits none when none is stated. -/
theorem version_inherit_eq_none {group artifact : String}
    (isGroup : declared.group = some group) (isArtifact : declared.artifact = some artifact)
    (versionless : declared.version = none)
    (unstated : ∀ entry ∈ management, entry.IsFor group artifact → entry.version = none) :
    (declared.inherit management).version = none := by
  cases inherited : (declared.inherit management).version with
  | none => rfl
  | some version =>
      obtain ⟨before, entry, after, rfl, isFor, isVersion, -⟩ :=
        (version_inherit isGroup isArtifact versionless version).1 inherited
      have absent := unstated entry (by simp) isFor
      rw [isVersion] at absent
      cases absent

/-- The dependency for which a declaration with these coordinates and without a version
stands: its version is the expansion of the last one that the management states for
them, and unknown when there is none or when nothing is left of it. -/
structure IsManaged (management : List Declared) (expansion : String → String)
    (group artifact : String) (dependency : Dependency) : Prop where
  named : dependency.group = expansion group ∧ dependency.artifact = expansion artifact
  stated : ∀ version, LastStates management (Declared.IsFor group artifact) version →
    dependency.version = filled unknownVersion (some (expansion version))
  unstated : (∀ entry ∈ management, entry.IsFor group artifact → entry.version = none) →
    dependency.version = unknownVersion

theorem exists_isManaged {group artifact : String} (isGroup : declared.group = some group)
    (isArtifact : declared.artifact = some artifact) (versionless : declared.version = none)
    (expansion : String → String) :
    ∃ dependency, (declared.inherit management).expected expansion = some dependency ∧
      IsManaged management expansion group artifact dependency := by
  have groupKept : (declared.inherit management).group = some group := isGroup
  have artifactKept : (declared.inherit management).artifact = some artifact := isArtifact
  simp only [Declared.expected, groupKept, artifactKept, Option.bind_eq_bind, Option.bind_some,
    Option.some.injEq, exists_eq_left']
  constructor
  case named => exact ⟨rfl, rfl⟩
  case stated =>
    intro version isLast
    rw [(version_inherit isGroup isArtifact versionless version).2 isLast]
    rfl
  case unstated =>
    intro unstated
    rw [version_inherit_eq_none isGroup isArtifact versionless unstated]
    rfl

end Reading

/-- Over an acyclic table each dependency without a version is resolved with the managed
one, and the others with their own. -/
theorem resolveText_managed (workingDirectory : Path) (request : Request) {text : String}
    {project : Node} (isProject : project? text.toList = some project)
    (complete : (ofProject project).missing = []) :
    ∃ module, resolveText workingDirectory request text = .ok module ∧
      ∀ (rank : String → Nat) (descends : Descends (ofProject project).seededProperties rank),
        module.dependencies = (dependenciesOf project).filterMap (fun declared =>
          (declared.inherit (managementOf project)).expected (substituteIn descends)) ∧
        ∀ declared ∈ dependenciesOf project, ∀ group artifact,
          declared.group = some group → declared.artifact = some artifact →
          declared.version = none →
          ∃ dependency ∈ module.dependencies,
            (declared.inherit (managementOf project)).expected (substituteIn descends) =
              some dependency ∧
            IsManaged (managementOf project) (substituteIn descends) group artifact
              dependency := by
  have isRead := read_of_project isProject
  rw [← isRead] at complete
  obtain ⟨module, resolves⟩ : ∃ module, resolveText workingDirectory request text = .ok module :=
    exists_resolveText complete
  refine ⟨module, resolves, ?_⟩
  intro rank descends
  have listed : module.dependencies = (dependenciesOf project).filterMap (fun declared =>
      (declared.inherit (managementOf project)).expected (substituteIn descends)) := by
    obtain ⟨-, -, equal⟩ := of_resolveText resolves
    rw [isRead, resolveDependencies_eq (sound_nil : Sound descends [])] at equal
    have written : (ofProject project).dependencies =
        (dependenciesOf project).map (Declared.manage (managedOf project)) := rfl
    rw [equal, written, managedOf_eq, List.filterMap_map]
    apply List.filterMap_congr
    intro declared _
    exact expected_manage _ declared
  refine ⟨listed, ?_⟩
  intro declared member group artifact isGroup isArtifact versionless
  obtain ⟨dependency, isExpected, isManaged⟩ :=
    exists_isManaged isGroup isArtifact versionless (substituteIn descends)
  refine ⟨dependency, ?_, isExpected, isManaged⟩
  rw [listed]
  exact List.mem_filterMap.2 ⟨declared, member, isExpected⟩

/-! ### One group in two spellings -/

namespace Document

variable {document : Document}

theorem project?_text (closed : document.content.unclosedCount = 0) :
    project? document.text = some (.element "project" document.content.nodes) := by
  have clear : withoutForeignEntities document.text = document.text := by
    apply withoutForeignEntities_of_not_mem
    intro member
    exact absurd (Markup.Content.isClear_of_mem_document member) (by decide)
  have named : projectName.text = "project" := String.ofList_toList
  rw [project?, clear, text, Markup.Content.ofText?_document, if_pos closed, Option.bind_some,
    named, Node.find?]
  simp only [beq_self_eq_true, if_true]

theorem managementOf_project (name : String) :
    managementOf (.element name document.content.nodes) = document.management := by
  rw [managementOf, child?_block document.fits name (by decide) (by decide), management]
  cases found : document.content.block? "dependencyManagement" with
  | none => rfl
  | some list =>
      have fits := Part.admits_of_block? document.fits .management (by decide) found
      simp only [Option.map_some, Option.getD_some, Option.bind_some]
      exact dependenciesOf_content fits (by decide) (by decide) _

theorem dependenciesOf_project (name : String) :
    dependenciesOf (.element name document.content.nodes) = document.written.dependencies :=
  dependenciesOf_content document.fits (by decide) (by decide) name

end Document

namespace Spelling

open Referring (leaf)
open Markup (Name Value Content Spaces)

def noSpaces : Spaces := ⟨[], Eq.refl true⟩

def org : Value := .ofText "org" (Eq.refl true)

/-- Another spelling of the same group in a module of that group. -/
def own : Value := .ofText "$\x7bproject.groupId\x7d" (Eq.refl true)

/-- The element of a dependency on a library of a group. -/
def library (spelling : Value) (others rest : Content) : Content :=
  .block noSpaces ⟨"dependency".toList, Eq.refl true, Eq.refl true⟩
    (leaf Referring.group spelling <|
      leaf Referring.artifact (.ofText "lib" (Eq.refl true)) others) rest

/-- A list of dependencies. -/
def list (content rest : Content) : Content :=
  .block noSpaces ⟨"dependencies".toList, Eq.refl true, Eq.refl true⟩ content rest

/-- A module of a group with two managed versions of a library, on which it depends; the
group of the library is spelled like this there. -/
def contentWith (spelling : Value) : Content :=
  leaf Referring.group org <|
  leaf Referring.artifact (.ofText "app" (Eq.refl true)) <|
  .block noSpaces ⟨"properties".toList, Eq.refl true, Eq.refl true⟩
    (leaf ⟨"v".toList, Eq.refl true, Eq.refl true⟩ (.ofText "2.0" (Eq.refl true))
      (.last noSpaces)) <|
  .block noSpaces ⟨"dependencyManagement".toList, Eq.refl true, Eq.refl true⟩
    (list
      (library org (leaf Referring.version (.ofText "1.0" (Eq.refl true)) (.last noSpaces)) <|
        library org
          (leaf Referring.version (.ofText "$\x7bv\x7d" (Eq.refl true)) (.last noSpaces)) <|
        .last noSpaces)
      (.last noSpaces)) <|
  list (library spelling (.last noSpaces) (.last noSpaces)) (.last noSpaces)

def written : Document := ⟨contentWith org, by decide, by decide, by decide⟩

def respelled : Document := ⟨contentWith own, by decide, by decide, by decide⟩

def request : Request := ⟨⟨"m/pom.xml"⟩, .compile, [], none⟩

/-- A library of a group with a version. -/
def declared (spelling : String) (version : Option String) : Declared where
  group := some spelling
  artifact := some "lib"
  version

def management : List Declared :=
  [declared "org" (some "1.0"), declared "org" (some "$\x7bv\x7d")]

theorem management_written : written.management = management := rfl

theorem management_respelled : respelled.management = management := rfl

theorem dependencies_written :
    written.written.dependencies = [declared "org" none] := rfl

theorem dependencies_respelled :
    respelled.written.dependencies = [declared "$\x7bproject.groupId\x7d" none] :=
  rfl

theorem descends_written : Descends written.managed.seededProperties fun _ => 0 := by
  decide +kernel

theorem descends_respelled : Descends respelled.managed.seededProperties fun _ => 0 := by
  decide +kernel

theorem dependencies_managed :
    respelled.managed.dependencies = [declared "$\x7bproject.groupId\x7d" none] :=
  rfl

theorem substituteIn_eq {table : PropertyTable} {rank : String → Nat} (descends : Descends table rank)
    {text expanded : String} (expands : (expand table [] text).1 = expanded) :
    substituteIn descends text = expanded :=
  ((sound_nil : Sound descends []).expand text).1.symm.trans expands

end Spelling

/-- The last managed version of the library is taken and expanded. -/
theorem resolveText_managed_written :
    ∃ project module dependency,
      project? (String.ofList Spelling.written.text).toList = some project ∧
      (ofProject project).missing = [] ∧
      resolveText ⟨"/"⟩ Spelling.request (String.ofList Spelling.written.text) = .ok module ∧
      module.dependencies = [dependency] ∧ dependency.group = "org" ∧
      dependency.version = "2.0" := by
  let project : Node := .element "project" Spelling.written.content.nodes
  have isProject : project? (String.ofList Spelling.written.text).toList = some project := by
    rw [String.toList_ofList]
    exact Document.project?_text (by decide)
  have isDescriptor : ofProject project = Spelling.written.managed :=
    Spelling.written.ofProject_nodes "project"
  have complete : (ofProject project).missing = [] := by
    rw [isDescriptor]
    decide
  obtain ⟨module, resolves, states⟩ :=
    resolveText_managed ⟨"/"⟩ Spelling.request isProject complete
  rw [isDescriptor, Document.dependenciesOf_project, Document.managementOf_project,
    Spelling.dependencies_written, Spelling.management_written] at states
  obtain ⟨listed, each⟩ := states _ Spelling.descends_written
  obtain ⟨dependency, -, isExpected, isManaged⟩ :=
    each (Spelling.declared "org" none) List.mem_cons_self "org" "lib" rfl rfl rfl
  have group : substituteIn Spelling.descends_written "org" = "org" :=
    Spelling.substituteIn_eq _ (by cbv)
  have version : substituteIn Spelling.descends_written "$\x7bv\x7d" = "2.0" :=
    Spelling.substituteIn_eq _ (by cbv)
  have isLast : LastStates Spelling.management (Declared.IsFor "org" "lib") "$\x7bv\x7d" :=
    ⟨[Spelling.declared "org" (some "1.0")], _, [], rfl, ⟨rfl, rfl⟩, rfl, by simp⟩
  refine ⟨project, module, dependency, isProject, complete, resolves, ?_, ?_, ?_⟩
  · rw [listed, List.filterMap_cons]
    simp only [isExpected, List.filterMap_nil]
  · exact isManaged.named.1.trans group
  · rw [isManaged.stated _ isLast, version]
    decide

/-- Two spellings of one group are not taken for the same. -/
theorem not_managed_by_expansion :
    ¬∀ (workingDirectory : Path) (request : Request) (text : String) (project : Node)
        (rank : String → Nat) (descends : Descends (ofProject project).seededProperties rank)
        (module : Module),
      project? text.toList = some project →
      resolveText workingDirectory request text = .ok module →
      ∀ declared ∈ dependenciesOf project, ∀ group artifact version,
        declared.group = some group → declared.artifact = some artifact →
        declared.version = none →
        LastStates (managementOf project) (fun entry =>
          entry.group.map (substituteIn descends) = some (substituteIn descends group) ∧
          entry.artifact.map (substituteIn descends) = some (substituteIn descends artifact))
          version →
        ∃ dependency ∈ module.dependencies,
          dependency.group = substituteIn descends group ∧
          dependency.artifact = substituteIn descends artifact ∧
          dependency.version = substituteIn descends version := by
  intro managed
  let project : Node := .element "project" Spelling.respelled.content.nodes
  have isProject : project? (String.ofList Spelling.respelled.text).toList = some project := by
    rw [String.toList_ofList]
    exact Document.project?_text (by decide)
  have isDescriptor : ofProject project = Spelling.respelled.managed :=
    Spelling.respelled.ofProject_nodes "project"
  have isRead := (read_of_project isProject).trans isDescriptor
  obtain ⟨module, resolves⟩ : ∃ module, resolveText ⟨"/"⟩ Spelling.request
      (String.ofList Spelling.respelled.text) = .ok module := by
    apply exists_resolveText
    rw [isRead]
    decide
  obtain ⟨-, -, equal⟩ := of_resolveText resolves
  rw [isRead, resolveDependencies_eq (sound_nil : Sound Spelling.descends_respelled []),
    Spelling.dependencies_managed] at equal
  have instances := managed ⟨"/"⟩ Spelling.request (String.ofList Spelling.respelled.text) project
  rw [isDescriptor, Document.dependenciesOf_project, Document.managementOf_project,
    Spelling.dependencies_respelled, Spelling.management_respelled] at instances
  have org : substituteIn Spelling.descends_respelled "org" = "org" :=
    Spelling.substituteIn_eq _ (by cbv)
  have reference : Coordinate.group.IsReference "$\x7bproject.groupId\x7d" :=
    ⟨"project.groupId".toList, by decide, by decide⟩
  have isStated : Coordinate.group.stated Spelling.respelled.managed = some "org" := by decide
  have own : substituteIn Spelling.descends_respelled "$\x7bproject.groupId\x7d" = "org" := by
    rw [reference.substituteIn_eq isStated (by rw [org]; decide), org]
  have version : substituteIn Spelling.descends_respelled "$\x7bv\x7d" = "2.0" :=
    Spelling.substituteIn_eq _ (by cbv)
  obtain ⟨dependency, member, -, -, isVersion⟩ :=
    instances _ Spelling.descends_respelled module isProject resolves
      (Spelling.declared "$\x7bproject.groupId\x7d" none) List.mem_cons_self
      "$\x7bproject.groupId\x7d" "lib" "$\x7bv\x7d" rfl rfl rfl
      ⟨[Spelling.declared "org" (some "1.0")], Spelling.declared "org" (some "$\x7bv\x7d"), [], rfl,
        ⟨congrArg some (org.trans own.symm), rfl⟩, rfl, by simp⟩
  have unmanaged : dependency.version = unknownVersion := by
    rw [equal] at member
    rw [List.mem_singleton.1 member]
    rfl
  rw [unmanaged, version] at isVersion
  exact absurd isVersion (by decide)

end ClassAtlas.Descriptor
