import Mathlib.Data.List.Forall2
import ProjectComposer.Proofs.Except
import ProjectComposer.Wire.Shape

/-!
Reading back: what a library has validated it dumps, under either spelling of the field names, so
that it validates to the same value. Dumping need not undo validating, which coerces values and
fills in what is absent; but validating once more changes nothing.

Two halves meet in the values that fit a shape. Whatever is accepted fits, where the values that
stand for absent fields do; and what fits is dumped so that it is accepted as itself. The fields of a
record need that no spelling of one is a spelling of another, and an option that `null` is not
written for a value that is there.
-/
namespace ProjectComposer.Wire
set_option autoImplicit false

/-! ## Field names -/

/-- No spelling of one field is a spelling of the other. -/
def FieldName.Apart (f g : FieldName) : Prop :=
  ∀ n n', f.spell n ≠ g.spell n'

theorem FieldName.apart_iff {f g : FieldName} : f.Apart g ↔
    (f.camel ≠ g.camel ∧ f.camel ≠ g.snake) ∧ f.snake ≠ g.camel ∧ f.snake ≠ g.snake := by
  constructor
  · intro h
    exact ⟨⟨h .camel .camel, h .camel .snake⟩, h .snake .camel, h .snake .snake⟩
  · rintro ⟨⟨_, _⟩, _, _⟩ n n'
    cases n <;> cases n' <;> assumption

instance (f g : FieldName) : Decidable (f.Apart g) :=
  decidable_of_iff _ FieldName.apart_iff.symm

theorem FieldName.find?_cons_of_apart {f g : FieldName} (h : f.Apart g) (n : Naming) (v : Json)
    (m : Json.Object) : g.find? ((f.spell n, v) :: m) = g.find? m := by
  have hcamel : f.spell n ≠ g.camel := h n .camel
  have hsnake : f.spell n ≠ g.snake := h n .snake
  simp only [FieldName.find?, Table.get?_cons, if_neg hcamel, if_neg hsnake]

/-- A field that is written in front is found there. Its other spelling is looked for first where
it is the one with inner capitals, but no other field has that. -/
theorem FieldName.find?_cons_self {f : FieldName} {n : Naming} {v : Json} {m : Json.Object}
    (h : f.camel ∉ m.keys) : f.find? ((f.spell n, v) :: m) = some (f.spell n, v) := by
  unfold FieldName.find?
  simp only [Table.get?_cons]
  cases n with
  | camel => simp [FieldName.spell]
  | snake =>
    by_cases hsame : f.snake = f.camel
    · simp [FieldName.spell, hsame]
    · have hnone : Table.get? m f.camel = none := by
        rw [← Option.not_isSome_iff_eq_none]
        exact fun hsome => h ((Table.has_iff m f.camel).mp hsome)
      simp [FieldName.spell, hsame, hnone]

/-! ## Sound shapes -/

/-- Only an option is written as `null`. -/
def Shape.isOptional : Shape → Bool
  | .optional _ => true
  | _ => false

mutual

/-- Field names are apart, values for absent fields fit, and options are not options again. -/
def Shape.sound : Shape → Bool
  | .list _ item => item.sound
  | .map member => member.sound
  | .optional present => !present.isOptional && present.sound
  | .record fields => decide (fields.names.Pairwise FieldName.Apart) && fields.sound
  | _ => true

def FieldShapes.sound : FieldShapes → Bool
  | .done => true
  | .field _ shape absent rest =>
    shape.sound && (absent.all fun d => shape.fits d) && rest.sound

end

/-! ## Complete dumps -/

mutual

/-- Every record in a dump shows all of its fields, in order and under the names of one spelling. -/
def Shape.ShownIn (n : Naming) : Shape → Json → Prop
  | .list _ item, v => ∃ vs, v = .list vs ∧ ∀ w ∈ vs, item.ShownIn n w
  | .map member, v => ∃ m, v = .object m ∧ ∀ e ∈ m, member.ShownIn n e.2
  | .optional present, v => v = .null ∨ present.ShownIn n v
  | .record fields, v => ∃ m, v = .object m ∧ fields.ShownIn n m
  | _, _ => True

def FieldShapes.ShownIn (n : Naming) : FieldShapes → Json.Object → Prop
  | .done, m => m = []
  | .field name shape _ rest, m =>
    ∃ v more, m = (name.spell n, v) :: more ∧ shape.ShownIn n v ∧ rest.ShownIn n more

end

theorem FieldShapes.ShownIn.keys_eq {n : Naming} {fields : FieldShapes} {m : Json.Object}
    (h : fields.ShownIn n m) : m.keys = fields.names.map fun name => name.spell n := by
  match fields, h with
  | .done, h =>
    rw [ShownIn] at h
    subst h
    rfl
  | .field name _ _ rest, h =>
    rw [ShownIn] at h
    obtain ⟨v, more, rfl, -, hmore⟩ := h
    exact congrArg (name.spell n :: ·) hmore.keys_eq

namespace Library
variable {L : Library}

/-! ## What is accepted fits -/

mutual

theorem Documented.fits (h : L.Documented) {v : Json} {a : Value} :
    (s : Shape) → s.sound = true → L.validate s v = some a → s.fits a = true
  | .text r, _, hv => by
    obtain ⟨s, -, hallows, rfl⟩ := (h.text r v a).mp hv
    exact hallows
  | .bool, _, hv => by
    obtain ⟨b, rfl⟩ := h.bool_some v a hv
    rfl
  | .int r, _, hv => by
    obtain ⟨i, rfl, hallows⟩ := h.int_some r v a hv
    exact hallows
  | .number, _, hv => by
    obtain ⟨x, rfl⟩ := h.number_some v a hv
    rfl
  | .oneOf names, _, hv => by
    obtain ⟨s, hs, -, rfl⟩ := (h.oneOf names v a).mp hv
    exact List.contains_iff_mem.mpr hs
  | .object, _, hv => by
    obtain ⟨m, -, rfl⟩ := (h.object v a).mp hv
    rfl
  | .list r item, hs, hv => by
    obtain ⟨vs, as, -, hitems, hallows, rfl⟩ := (h.list r item v a).mp hv
    rw [Shape.fits, hallows, Bool.true_and, List.all_eq_true]
    intro b hb
    obtain ⟨w, -, hw⟩ := exists_mem_of_forall₂ hitems hb
    exact h.fits item hs hw
  | .map member, hs, hv => by
    obtain ⟨m, t, -, hmembers, rfl⟩ := (h.map member v a).mp hv
    rw [Shape.fits, List.all_eq_true]
    intro e he
    obtain ⟨w, -, -, hw⟩ := exists_mem_of_forall₂ hmembers he
    exact h.fits member hs hw
  | .optional present, hs, hv => by
    rw [Shape.sound, Bool.and_eq_true] at hs
    rw [Shape.fits, Bool.or_eq_true]
    by_cases hnull : v = .null
    · rw [hnull, h.optional_null, Option.some.injEq] at hv
      exact .inl (hv ▸ rfl)
    · rw [h.optional_some present v hnull] at hv
      exact .inr (h.fits present hs.2 hv)
  | .record fields, hs, hv => by
    rw [Shape.sound, Bool.and_eq_true] at hs
    obtain ⟨m, as, -, hreads, rfl⟩ := (h.record fields v a).mp hv
    exact h.fits_fields fields hs.2 hreads

theorem Documented.fits_fields (h : L.Documented) {m : Json.Object} {as : List Value} :
    (fields : FieldShapes) → fields.sound = true → L.Reads m fields as → fields.fits as = true
  | .done, _, hreads => by
    cases as with
    | nil => rfl
    | cons a as => exact hreads.elim
  | .field name shape absent rest, hs, hreads => by
    rw [FieldShapes.sound, Bool.and_eq_true, Bool.and_eq_true] at hs
    obtain ⟨⟨hshape, habsent⟩, hrest⟩ := hs
    cases as with
    | nil => exact hreads.elim
    | cons a as =>
      obtain ⟨hfield, hreads⟩ := hreads
      rw [FieldShapes.fits, h.fits_fields rest hrest hreads, Bool.and_true]
      unfold readField at hfield
      split at hfield
      · exact h.fits shape hshape hfield
      · rw [hfield] at habsent
        exact habsent

end

/-! ## What fits is accepted as it is dumped -/

theorem keys_dumpFields {n : Naming} {as : List Value} : (fields : FieldShapes) →
    fields.fits as = true →
    Table.keys (L.dumpFields n fields as) = fields.names.map fun name => name.spell n
  | .done, hfits => by
    cases as with
    | nil => rfl
    | cons a as => cases hfits
  | .field name shape absent rest, hfits => by
    cases as with
    | nil => cases hfits
    | cons a as =>
      rw [FieldShapes.fits, Bool.and_eq_true] at hfits
      exact congrArg (name.spell n :: ·) (keys_dumpFields rest hfits.2)

/-- A value that is there is not written as `null`. -/
theorem Documented.dump_ne_null (h : L.Documented) {n : Naming} {s : Shape} {a : Value}
    (hopt : s.isOptional = false) (hfits : s.fits a = true) :
    L.dump n s a ≠ .null ∧ a.isAbsent = false := by
  cases s <;> cases a <;>
    simp_all [Shape.isOptional, Shape.fits, Value.isAbsent, h.dump_text, h.dump_bool, h.dump_int,
      h.dump_number, h.dump_oneOf, h.dump_object, h.dump_list, h.dump_map, h.dump_record]

mutual

theorem Documented.validate_dump (h : L.Documented) (n : Naming) {a : Value} :
    (s : Shape) → s.sound = true → s.fits a = true → L.validate s (L.dump n s a) = some a
  | .text r, _, hfits => by
    cases a with
    | text s => exact (h.text _ _ _).mpr ⟨s, h.dump_text n r s, hfits, rfl⟩
    | _ => cases hfits
  | .bool, _, hfits => by
    cases a with
    | bool b => rw [h.dump_bool, h.bool_self]
    | _ => cases hfits
  | .int r, _, hfits => by
    cases a with
    | int i => rw [h.dump_int, h.int_self r i hfits]
    | _ => cases hfits
  | .number, _, hfits => by
    cases a with
    | number x => rw [h.dump_number, h.number_self]
    | _ => cases hfits
  | .oneOf names, _, hfits => by
    cases a with
    | text s =>
      exact (h.oneOf _ _ _).mpr ⟨s, List.contains_iff_mem.mp hfits, h.dump_oneOf n names s, rfl⟩
    | _ => cases hfits
  | .object, _, hfits => by
    cases a with
    | object m => exact (h.object _ _).mpr ⟨m, h.dump_object n m, rfl⟩
    | _ => cases hfits
  | .list r item, hs, hfits => by
    cases a with
    | list as =>
      rw [Shape.fits, Bool.and_eq_true, List.all_eq_true] at hfits
      refine (h.list _ _ _ _).mpr ⟨_, as, h.dump_list n r item as, ?_, hfits.1, rfl⟩
      rw [List.forall₂_map_left_iff, List.forall₂_same]
      exact fun a ha => h.validate_dump n item hs (hfits.2 a ha)
    | _ => cases hfits
  | .map member, hs, hfits => by
    cases a with
    | map t =>
      rw [Shape.fits, List.all_eq_true] at hfits
      refine (h.map _ _ _).mpr ⟨_, t, h.dump_map n member t, ?_, rfl⟩
      rw [List.forall₂_map_left_iff, List.forall₂_same]
      exact fun e he => ⟨rfl, h.validate_dump n member hs (hfits e he)⟩
    | _ => cases hfits
  | .optional present, hs, hfits => by
    rw [Shape.sound, Bool.and_eq_true, Bool.not_eq_true'] at hs
    rw [Shape.fits, Bool.or_eq_true] at hfits
    rcases hfits with habsent | hpresent
    · cases a with
      | absent => rw [h.dump_absent, h.optional_null]
      | _ => cases habsent
    · obtain ⟨hnull, habsent⟩ := h.dump_ne_null (n := n) hs.1 hpresent
      rw [h.dump_present n present a habsent, h.optional_some present _ hnull,
        h.validate_dump n present hs.2 hpresent]
  | .record fields, hs, hfits => by
    rw [Shape.sound, Bool.and_eq_true, decide_eq_true_iff] at hs
    cases a with
    | record as =>
      refine (h.record _ _ _).mpr ⟨_, as, h.dump_record n fields as, ?_, rfl⟩
      exact h.reads_dumpFields n fields hs.2 hs.1 hfits fun _ _ => rfl
    | _ => cases hfits

/-- Fields are read again from every object in which each of their names finds what is dumped for
it. -/
theorem Documented.reads_dumpFields (h : L.Documented) (n : Naming) {m : Json.Object}
    {as : List Value} : (fields : FieldShapes) → fields.sound = true →
      fields.names.Pairwise FieldName.Apart → fields.fits as = true →
      (∀ name ∈ fields.names, name.find? m = name.find? (L.dumpFields n fields as)) →
      L.Reads m fields as
  | .done, _, _, hfits, _ => by
    cases as with
    | nil => trivial
    | cons a as => cases hfits
  | .field name shape absent rest, hs, hapart, hfits, hfind => by
    rw [FieldShapes.sound, Bool.and_eq_true, Bool.and_eq_true] at hs
    cases as with
    | nil => cases hfits
    | cons a as =>
      rw [FieldShapes.fits, Bool.and_eq_true] at hfits
      obtain ⟨hname, hapart⟩ := List.pairwise_cons.mp hapart
      obtain ⟨hfirst, hothers⟩ := List.forall_mem_cons.mp hfind
      have hcamel : name.camel ∉ Table.keys (L.dumpFields n rest as) := by
        rw [keys_dumpFields rest hfits.2, List.mem_map]
        rintro ⟨other, hother, hsame⟩
        exact hname other hother .camel n hsame.symm
      refine ⟨?_, h.reads_dumpFields n rest hs.2 hapart hfits.2 fun other hother => ?_⟩
      · rw [readField, hfirst, dumpFields, FieldName.find?_cons_self hcamel]
        exact h.validate_dump n shape hs.1.1 hfits.1
      · exact (hothers other hother).trans
          (FieldName.find?_cons_of_apart (hname other hother) n _ _)

end

/-! ## Dumps are complete -/

mutual

theorem Documented.shownIn_dump (h : L.Documented) (n : Naming) {a : Value} :
    (s : Shape) → s.sound = true → s.fits a = true → s.ShownIn n (L.dump n s a)
  | .text _, _, _ => trivial
  | .bool, _, _ => trivial
  | .int _, _, _ => trivial
  | .number, _, _ => trivial
  | .oneOf _, _, _ => trivial
  | .object, _, _ => trivial
  | .list r item, hs, hfits => by
    cases a with
    | list as =>
      rw [Shape.fits, Bool.and_eq_true, List.all_eq_true] at hfits
      refine ⟨_, h.dump_list n r item as, fun w hw => ?_⟩
      obtain ⟨a, ha, rfl⟩ := List.mem_map.mp hw
      exact h.shownIn_dump n item hs (hfits.2 a ha)
    | _ => cases hfits
  | .map member, hs, hfits => by
    cases a with
    | map t =>
      rw [Shape.fits, List.all_eq_true] at hfits
      refine ⟨_, h.dump_map n member t, fun e he => ?_⟩
      obtain ⟨f, hf, rfl⟩ := List.mem_map.mp he
      exact h.shownIn_dump n member hs (hfits f hf)
    | _ => cases hfits
  | .optional present, hs, hfits => by
    rw [Shape.sound, Bool.and_eq_true, Bool.not_eq_true'] at hs
    rw [Shape.fits, Bool.or_eq_true] at hfits
    rcases hfits with habsent | hpresent
    · cases a with
      | absent => exact .inl (h.dump_absent n present)
      | _ => cases habsent
    · refine .inr ?_
      rw [h.dump_present n present a (h.dump_ne_null (n := n) hs.1 hpresent).2]
      exact h.shownIn_dump n present hs.2 hpresent
  | .record fields, hs, hfits => by
    rw [Shape.sound, Bool.and_eq_true] at hs
    cases a with
    | record as => exact ⟨_, h.dump_record n fields as, h.shownIn_dumpFields n fields hs.2 hfits⟩
    | _ => cases hfits

theorem Documented.shownIn_dumpFields (h : L.Documented) (n : Naming) {as : List Value} :
    (fields : FieldShapes) → fields.sound = true → fields.fits as = true →
      fields.ShownIn n (L.dumpFields n fields as)
  | .done, _, hfits => by
    cases as with
    | nil => rfl
    | cons a as => cases hfits
  | .field name shape absent rest, hs, hfits => by
    rw [FieldShapes.sound, Bool.and_eq_true, Bool.and_eq_true] at hs
    cases as with
    | nil => cases hfits
    | cons a as =>
      rw [FieldShapes.fits, Bool.and_eq_true] at hfits
      exact ⟨_, _, rfl, h.shownIn_dump n shape hs.1.1 hfits.1,
        h.shownIn_dumpFields n rest hs.2 hfits.2⟩

end

/-- What was accepted once is dumped with all fields and accepted again without a change. -/
theorem Documented.readsBack (h : L.Documented) {s : Shape} (hs : s.sound = true) {v : Json}
    {a : Value} (hv : L.validate s v = some a) (n : Naming) :
    s.ShownIn n (L.dump n s a) ∧ L.validate s (L.dump n s a) = some a :=
  ⟨h.shownIn_dump n s hs (h.fits s hs hv), h.validate_dump n s hs (h.fits s hs hv)⟩

end Library
end ProjectComposer.Wire
