import ProjectComposer.Wire.Issue

/-!
Results of reading: a value or the issues found. Unlike a chain of binds, `both` goes on after
a failure, so the issues of all parts are collected in order.
-/
namespace ProjectComposer.Wire
set_option autoImplicit false

abbrev Checked (α : Type) := Except Issues α

namespace Checked
variable {α β γ : Type}

/-- The problem of a value that was found. -/
def fail (v : Json) (p : Problem) : Checked α :=
  .error ⟨⟨[], p, .ofJson v⟩, []⟩

/-- Takes a value or, for what was found, its problem. -/
def judge (v : Json) : Except Problem α → Checked α
  | .ok a => .ok a
  | .error p => fail v p

/-- Puts the issues of a part under its place in the whole. -/
def within (s : Step) : Checked α → Checked α
  | .ok a => .ok a
  | .error is => .error (is.within s)

def both : Checked α → Checked β → Checked (α × β)
  | .ok a, .ok b => .ok (a, b)
  | .ok _, .error js => .error js
  | .error is, .ok _ => .error is
  | .error is, .error js => .error (is.append js)

/-- Reads the items of a list, the first at position `i`. -/
def items (read : γ → Checked α) (i : Nat) : List γ → Checked (List α)
  | [] => .ok []
  | v :: rest =>
    (both (within (.index i) (read v)) (items read (i + 1) rest)).map fun r => r.1 :: r.2

/-- Reads the values of named members. -/
def members (read : γ → Checked α) : List (String × γ) → Checked (List (String × α))
  | [] => .ok []
  | (k, v) :: rest =>
    (both (within (.name k) (read v)) (members read rest)).map fun r => (k, r.1) :: r.2

@[simp] theorem both_ok (a : α) (b : β) : both (.ok a) (.ok b) = .ok (a, b) := rfl

@[simp] theorem within_ok (s : Step) (a : α) : within s (.ok a) = .ok a := rfl

theorem both_eq_ok {x : Checked α} {y : Checked β} {p : α × β} :
    both x y = .ok p ↔ x = .ok p.1 ∧ y = .ok p.2 := by
  cases x <;> cases y <;> simp [both, Prod.ext_iff]

theorem within_eq_ok {s : Step} {x : Checked α} {a : α} : within s x = .ok a ↔ x = .ok a := by
  cases x <;> simp [within]

end Checked
end ProjectComposer.Wire
