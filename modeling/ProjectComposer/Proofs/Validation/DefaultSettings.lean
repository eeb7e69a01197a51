import ProjectComposer.Blueprint.Codec
import ProjectComposer.Proofs.Except

/-!
The settings that stand in for missing ones are valid: the first hundred code points of an id that
is not empty, and the name in place of an empty one, pass for the name of a project.
-/
namespace ProjectComposer
set_option autoImplicit false

namespace Wire

/-- A field whose member is there and reads well. -/
theorem Fields.readField_of_find {α : Type} {f : FieldName} {c : Codec α} {source : Source}
    {m : Json.Object} {key : String} {v : Json} {a : α} (hfind : f.find? m = some (key, v))
    (h : c.read source v = .ok a) (absent : Option α) :
    readField f c absent source m = .ok a := by
  unfold readField
  rw [hfind]
  exact Checked.within_eq_ok.mpr h

theorem Codec.TextRule.check_of_bounds {least most : Nat} {s : String}
    (hleast : least ≤ s.toList.length) (hmost : s.toList.length ≤ most) :
    check { least := least, most := some most } s = .ok s := by
  unfold check
  simp [Nat.not_lt.mpr hleast, Nat.not_lt.mpr hmost]

end Wire

/-- A project is complete with a name of one to a hundred code points. -/
theorem Project.validate_of_name {name : String} (hleast : 1 ≤ name.toList.length)
    (hmost : name.toList.length ≤ 100) :
    codec.validate "ProjectMetadata" .memory (.object [("name", .text name)]) =
      .ok { name := name } := by
  have hname : (Wire.Codec.textWith { least := 1, most := some 100 }).read .memory (.text name) =
      .ok name := by
    change Wire.Checked.judge _ (Wire.Codec.TextRule.check _ name) = _
    rw [Wire.Codec.TextRule.check_of_bounds hleast hmost]
    rfl
  have hproject : codec.read .memory (.object [("name", .text name)]) = .ok { name := name } := by
    change ((Wire.Fields.readField _ _ _ _ _).both _).map _ = _
    rw [Wire.Fields.readField_of_find rfl hname]
    rfl
  rw [Wire.Codec.validate, hproject]

namespace Blueprint

theorem length_defaultName (b : Blueprint) :
    1 ≤ b.defaultName.toList.length ∧ b.defaultName.toList.length ≤ 100 := by
  unfold defaultName
  dsimp only
  split
  · exact ⟨by decide, by decide⟩
  · next hne =>
    refine ⟨?_, ?_⟩
    · rw [Nat.one_le_iff_ne_zero, ne_eq, List.length_eq_zero_iff, String.toList_eq_nil_iff]
      exact hne
    · rw [Text.take, String.toList_ofList]
      exact List.length_take_le 100 _

theorem resolve_eq (b : Blueprint) : b.resolve = .ok b.resolvedSettings := by
  unfold resolve resolvedSettings
  cases b.settings with
  | some s => rfl
  | none =>
    obtain ⟨hleast, hmost⟩ := b.length_defaultName
    simp only [Project.validate_of_name hleast hmost]
    rfl

end Blueprint
end ProjectComposer
