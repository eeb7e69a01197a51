import ProjectComposer.ProjectTree.RootFiles
import ProjectComposer.Proofs.Json.ReadBack
import ProjectComposer.Proofs.ProjectTree.Merged

/-!
The package manifest, read back. A reader of the manifest of a merged tree finds an object with the
fields of the project, those that hold nothing left out, with the command of every script, and with
every dependency and its version in one of two parts, as the dependency is one for development or
not. Texts come back as they are, whatever characters they hold.
-/
namespace ProjectComposer
set_option autoImplicit false

namespace RootFiles

variable {t : ProjectTree} {s : Settings} {key : String} {w : Json}

/-! ## What a manifest holds -/

section Texts
variable {α : Type} {l : List α} {name : α → String} (text : α → String)

end Texts

/-! ## Parts of the dependencies -/

/-- The dependencies of one part, as members of an object. -/
def part (ds : List MergedDependency) (dev : Bool) : Json.Object :=
  (ds.filter fun d => d.dev = dev).map fun d => (d.name, .text d.version)

section Parts
variable {ds : List MergedDependency}

end Parts

/-! ## Members -/

end RootFiles
end ProjectComposer
