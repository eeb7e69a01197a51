import ProjectComposer.Layout.Basic
import ProjectComposer.Options.Config

/-!
The layout for nodes with validated configs. The first frontend node decides whether code lives in a
directory for sources, by its validated config or, without one, by what its raw config says.
-/
namespace ProjectComposer
set_option autoImplicit false

namespace Layout

/-- Only an explicit `false` denies a directory for sources. -/
def rawUsesSource (n : Node) : Bool :=
  match n.config.get? "srcDirectory" with
  | some (.bool false) => false
  | _ => true

def usesSource (configs : Table Config) (n : Node) : Bool :=
  match configs.get? n.id with
  | some c => c.usesSource
  | none => rawUsesSource n

def configured (nodes : List Node) (configs : Table Config) (roots : Roots) : Layout :=
  ofNodes nodes roots (usesSource configs)

end Layout
end ProjectComposer
