import ProjectComposer.Diagnostic.Fault
import ProjectComposer.Proofs.Except

/-!
Reported failures. A computation fails in no other way than a report can show if all its failures
are faults with diagnostics; then no look-up in it was in vain. Computations in a row keep to this
if each of them does on what those before it gave.
-/
namespace ProjectComposer
set_option autoImplicit false

variable {α β : Type}

/-- A failure that is a fault with at least one diagnostic. -/
def Failure.IsReported (e : Failure) : Prop :=
  ∃ f, e = .fault f ∧ f.diagnostics ≠ []

def OnlyReported (x : Except Failure α) : Prop :=
  ∀ e, x = .error e → e.IsReported

/-- The same for computations that have no failures but faults. -/
def Diagnosed (x : Except Fault α) : Prop :=
  ∀ f, x = .error f → f.diagnostics ≠ []

theorem Diagnosed.mapError {x : Except Fault α} (h : Diagnosed x) :
    OnlyReported (x.mapError .fault) := by
  intro e he
  obtain ⟨f, hf, rfl⟩ := mapError_eq_error.mp he
  exact ⟨f, rfl, h f hf⟩

namespace OnlyReported

theorem ok (a : α) : OnlyReported (.ok a) := by
  intro e he
  cases he

theorem of_exists {x : Except Failure α} (h : ∃ a, x = .ok a) : OnlyReported x := by
  obtain ⟨a, rfl⟩ := h
  exact ok a

theorem ok_or_fault {x : Except Failure α} (h : OnlyReported x) :
    (∃ a, x = .ok a) ∨ ∃ f, x = .error (.fault f) ∧ f.diagnostics ≠ [] := by
  cases x with
  | ok a => exact .inl ⟨a, rfl⟩
  | error e =>
    obtain ⟨f, rfl, hf⟩ := h e rfl
    exact .inr ⟨f, rfl, hf⟩

theorem ofKind (k : Fault.Kind) (given : List Diagnostic) :
    OnlyReported (.error (.fault (.ofKind k given)) : Except Failure α) := by
  intro e he
  cases he
  exact ⟨_, rfl, Fault.diagnostics_ofKind_ne_nil k given⟩

theorem bind {x : Except Failure α} {f : α → Except Failure β} (hx : OnlyReported x)
    (hf : ∀ a, x = .ok a → OnlyReported (f a)) : OnlyReported (x >>= f) := by
  intro e he
  rcases bind_eq_error.mp he with he | ⟨a, ha, he⟩
  · exact hx e he
  · exact hf a ha e he

theorem map {x : Except Failure α} (hx : OnlyReported x) (f : α → β) : OnlyReported (x.map f) :=
  fun e he => hx e (map_eq_error.mp he)

theorem mapM {f : α → Except Failure β} {l : List α} (h : ∀ a ∈ l, OnlyReported (f a)) :
    OnlyReported (l.mapM f) := by
  intro e he
  obtain ⟨before, a, after, rfl, -, ha⟩ := mapM_eq_error.mp he
  exact h a (by simp) e ha

end OnlyReported
end ProjectComposer
