import ProjectComposer.Plugin.Basic

/-!
Registries: plugins by id in order of registration, with an optional list of the ids allowed. A
registration of an id that is not allowed or already taken is refused and changes nothing.
-/
namespace ProjectComposer
set_option autoImplicit false

structure Registry where
  /-- No restriction where empty. -/
  allowed : List String := []
  plugins : List Plugin := []

namespace Registry

inductive Refusal
  | notAllowed (id : String)
  | taken (id : String)
  deriving DecidableEq, Repr

def Refusal.message : Refusal → String
  | .notAllowed id => "Plugin '" ++ id ++ "' is not in the allowed plugins list"
  | .taken id => "Plugin '" ++ id ++ "' is already registered"

def get? (r : Registry) (kind : String) : Option Plugin :=
  r.plugins.find? fun p => p.id = kind

def has (r : Registry) (kind : String) : Bool :=
  (r.get? kind).isSome

def ids (r : Registry) : List String :=
  r.plugins.map (·.id)

def register (r : Registry) (p : Plugin) : Except Refusal Registry :=
  if r.allowed ≠ [] ∧ p.id ∉ r.allowed then .error (.notAllowed p.id)
  else if r.has p.id then .error (.taken p.id)
  else .ok { r with plugins := r.plugins ++ [p] }

/-- Registers plugins from left to right; those refused are passed over. -/
def registerAll (r : Registry) (ps : List Plugin) : Registry :=
  ps.foldl (fun r p => match r.register p with | .ok r' => r' | .error _ => r) r

def ofPlugins (ps : List Plugin) : Registry :=
  registerAll {} ps

def byField (r : Registry) (f : Field) : List Plugin :=
  r.plugins.filter fun p => p.card.field = f

def size (r : Registry) : Nat :=
  r.plugins.length

end Registry
end ProjectComposer
