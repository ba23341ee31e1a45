import ClassAtlas.BuildTool

/-!
# Choice of a resolver

A module is resolved by reading its descriptor, or by running a build tool when one
is set.
-/

namespace ClassAtlas

/-- A way to resolve modules. -/
inductive Resolver where
  | descriptor
  | externalTool
  deriving DecidableEq, Repr

namespace Resolver

/-- The resolver that the settings call for. -/
def selected (settings : BuildSettings) : Resolver :=
  if settings.executable.isSome then .externalTool else .descriptor

def kind : Resolver → String
  | .descriptor => "descriptor"
  | .externalTool => "external_tool"

def name : Resolver → String
  | .descriptor => "DirectResolver"
  | .externalTool => "InvokerResolver"

/-- The resolver can be expected to work. -/
def isAvailable (files : FileTree) (settings : BuildSettings) : Resolver → Bool
  | .descriptor => true
  | .externalTool => BuildTool.isAvailable files settings

def resolve (files : FileTree) (settings : BuildSettings) (request : Descriptor.Request) :
    Resolver → Except ResolveError Module
  | .descriptor => Descriptor.resolveFile files request
  | .externalTool => BuildTool.resolve files settings request

end Resolver
end ClassAtlas
