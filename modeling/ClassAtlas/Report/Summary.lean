import ClassAtlas.Decimal
import ClassAtlas.Indexing.Pass
import ClassAtlas.NameResolution.Basic
import ClassAtlas.Report.Table

/-!
# Printed reports

The texts in which the outcome of a command is shown to the user.
-/

namespace ClassAtlas.Report

def labelWidth : Nat := 13

/-- A line of a summary. -/
def labelled (label value : String) : String :=
  padded labelWidth label ++ ": " ++ value ++ "\n"

/-- A line of a summary with a number. -/
def counted (label : String) (value : Nat) : String :=
  labelled label (toString value)

/-- What stands for a missing value. -/
def absent : String := "-"

/-- A path that may be missing. -/
def optionalPath (path : Option Path) : String :=
  (path.map (·.text)).getD absent

/-- Items on one line. -/
def listed (items : List String) : String :=
  ", ".intercalate items

def moduleDetails (module : Module) : String :=
  String.join ([
    labelled "Module" module.coordinates,
    labelled "Packaging" module.packaging,
    labelled "Descriptor" module.descriptor.text,
    labelled "Base dir" module.baseDirectory.text,
    labelled "Scope" module.scope.name,
    labelled "Profiles" (if module.activeProfiles.isEmpty then absent
      else listed module.activeProfiles)] ++
    (if module.modules.isEmpty then [] else [labelled "Modules" (listed module.modules)]) ++ [
    labelled "Repository" (optionalPath module.localRepository),
    counted "Dependencies" module.dependencies.length,
    counted "Archives" module.classpathArchives.length,
    counted "Sources" module.sourceArchives.length,
    "Classpath:\n"] ++
    module.classpath.map fun path => "  " ++ path.text ++ "\n")

def dependencyRow (dependency : Dependency) : List String :=
  [dependency.coordinates, dependency.scope.name, if dependency.optional then "yes" else "no",
    optionalPath dependency.archive]

def dependencyTable (dependencies : List Dependency) : String :=
  if dependencies.isEmpty then "No dependencies.\n"
  else table ["dependency", "scope", "optional", "archive"] (dependencies.map dependencyRow)

/-- The numbers of an index and of the pass that built it. -/
def indexSummary (module : Module) (index : ClassIndex) (summary : Indexing.Summary) :
    String :=
  String.join [
    labelled "Module" module.coordinates,
    counted "Archives" summary.archives,
    counted "Directories" summary.directories,
    counted "Sources" summary.sourceArchives,
    counted "Skipped" summary.failed,
    counted "Classes" index.classCount,
    counted "Simple names" index.simpleNameCount,
    labelled "Elapsed" (toString summary.elapsedMilliseconds ++ " ms")]

/-- A table of classes by their qualified names, each with its dependency if known. -/
def classTable (classes : List (String × Option String)) : String :=
  table ["class", "dependency"] (classes.map fun (name, owner) => [name, owner.getD absent])

/-- The places of a printed confidence. -/
def confidencePlaces : Nat := 2

def resolutionText (resolution : Resolution) : String :=
  match resolution.rule, resolution.resolved with
  | .ambiguous, some best =>
      resolution.name ++ " -> " ++ best ++ " (" ++ resolution.rule.name ++ ", confidence " ++
        Decimal.fixedText confidencePlaces resolution.confidence ++ ")\n" ++
        "  candidates: " ++ listed resolution.possible ++ "\n"
  | rule, resolved =>
      resolution.name ++ " -> " ++ resolved.getD "?" ++ " (" ++ rule.name ++ ")\n"

def resolutionsText (resolutions : List Resolution) : String :=
  String.join (resolutions.map resolutionText)

end ClassAtlas.Report
