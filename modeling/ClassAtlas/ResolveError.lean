import ClassAtlas.FileTree

/-!
# Failures of resolution

The reasons why no module view can be given for a descriptor.  `message` words them,
and `isToolFailure` tells those after which reading the descriptor itself may help.
-/

namespace ClassAtlas

/-- A field without which a module has no identity. -/
inductive IdentityField where
  | group
  | artifact
  deriving DecidableEq, Repr

/-- The element that holds the field. -/
def IdentityField.element : IdentityField → String
  | .group => "groupId"
  | .artifact => "artifactId"

/-- What went wrong with a build tool that did not run into its time limit. -/
inductive ToolFailure where
  | notFound (executable : Path)
  | notStarted (executable : Path) (reason : String)
  /-- It ended with this status, or by a signal; the text is the end of its output. -/
  | failed (status : Option Nat) (ending : String)
  deriving DecidableEq, Repr

def ToolFailure.message : ToolFailure → String
  | .notFound executable => "executable not found: " ++ executable.text
  | .notStarted executable reason => "failed to start " ++ executable.text ++ ": " ++ reason
  | .failed status ending =>
      "exit status " ++ (status.map toString).getD "signal" ++ "\n" ++ ending

/-- Why a descriptor could not be resolved. -/
inductive ResolveError where
  | descriptorAbsent (path : Path)
  | identityMissing (path : Path) (fields : List IdentityField)
  | toolFailed (path : Path) (failure : ToolFailure)
  | timedOut (path : Path) (seconds : Nat)
  | unreadable (path : Path) (cause : ReadError)
  deriving DecidableEq, Repr

namespace ResolveError

def message : ResolveError → String
  | .descriptorAbsent path => "Descriptor does not exist: " ++ path.text
  | .identityMissing path fields =>
      "Invalid descriptor " ++ path.text ++ ": missing " ++
        " and ".intercalate (fields.map IdentityField.element)
  | .toolFailed path failure =>
      "External build tool failed for " ++ path.text ++ ": " ++ failure.message
  | .timedOut path seconds =>
      "External build tool timed out after " ++ toString seconds ++ "s for " ++ path.text
  | .unreadable path cause =>
      "IO error while reading " ++ path.text ++ ": " ++ cause.message

/-- The build tool failed, so that the descriptor itself may still be resolved. -/
def isToolFailure : ResolveError → Bool
  | .toolFailed .. | .timedOut .. => true
  | _ => false

end ResolveError
end ClassAtlas
