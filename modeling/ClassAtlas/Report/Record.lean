import ClassAtlas.ClassIndex.Search
import ClassAtlas.Data.Reading
import ClassAtlas.Indexing.Pass

/-!
# Machine-readable records

Dependencies, modules, hits of a search and the numbers of an indexing pass as data,
with the field names under which other programs know them.  A field that a dependency
does not have is left out; all other records have all of their fields.
-/

namespace ClassAtlas

/-- A field that is left out when there is no value. -/
def Data.whenPresent (key : String) (value : Option String) : List (String × Data) :=
  (value.map fun value => [(key, Data.text value)]).getD []

def Dependency.record (dependency : Dependency) : Data :=
  .table ([("group_id", .text dependency.group),
      ("artifact_id", .text dependency.artifact),
      ("version", .text dependency.version)] ++
    Data.whenPresent "classifier" dependency.classifier ++
    [("type", .text dependency.type),
      ("scope", .text dependency.scope.name),
      ("optional", .boolean dependency.optional)] ++
    Data.whenPresent "jar_path" (dependency.archive.map (·.text)) ++
    Data.whenPresent "system_path" dependency.systemPath)

def Module.record (module : Module) : Data :=
  .table [("pom_file", module.descriptor.record),
    ("base_directory", module.baseDirectory.record),
    ("project_root", module.projectRoot.record),
    ("group_id", .text module.group),
    ("artifact_id", .text module.artifact),
    ("version", .text module.version),
    ("packaging", .text module.packaging),
    ("local_repository", .ofOption Path.record module.localRepository),
    ("scope", .text module.scope.name),
    ("active_profiles", .texts module.activeProfiles),
    ("modules", .texts module.modules),
    ("dependencies", .list (module.dependencies.map Dependency.record)),
    ("classpath", .list (module.classpath.map Path.record)),
    ("classpath_jars", .list (module.classpathArchives.map Path.record)),
    ("source_jars", .list (module.sourceArchives.map Path.record)),
    ("output_directory", module.outputDirectory.record),
    ("test_output_directory", module.testOutputDirectory.record)]

def ClassIndex.Hit.record (hit : ClassIndex.Hit) : Data :=
  .table [("class_name", .text hit.name.qualified), ("simple_name", .text hit.name.simple),
    ("package", .text hit.name.package), ("dependency", .ofOption .text hit.owner)]

/-- The numbers of an indexing pass, as fields of a record. -/
def Indexing.Summary.fields (summary : Indexing.Summary) : List (String × Data) :=
  [("binary_archives", .natural summary.archives),
    ("directories", .natural summary.directories),
    ("source_archives", .natural summary.sourceArchives),
    ("failed", .natural summary.failed), ("entries", .natural summary.entries),
    ("elapsed_ms", .natural summary.elapsedMilliseconds)]

end ClassAtlas
