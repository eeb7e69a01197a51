import ProjectComposer.Proofs.Wire.ReadBack

/-!
Codecs and shapes. The readers of the codecs make a library that keeps to its documentation. A codec
follows a shape if it reads what this library accepts for the shape, as the same value, and writes
what the library dumps. Each way to build a codec carries this over from its parts, so a record
follows its shape where the fields of both are the same, in the same order and with the same values
for absent fields.
-/
namespace ProjectComposer.Wire
set_option autoImplicit false

/-! ## Results without their issues -/

section Results
variable {α β γ : Type}

@[simp] theorem toOption_map (x : Checked α) (f : α → β) :
    (x.map f).toOption = x.toOption.map f := by
  cases x <;> rfl

@[simp] theorem toOption_judge (v : Json) (x : Except Problem α) :
    (Checked.judge v x).toOption = x.toOption := by
  cases x <;> rfl

@[simp] theorem toOption_within (s : Step) (x : Checked α) :
    (x.within s).toOption = x.toOption := by
  cases x <;> rfl

theorem toOption_both (x : Checked α) (y : Checked β) :
    (Checked.both x y).toOption = x.toOption.bind fun a => y.toOption.map fun b => (a, b) := by
  cases x <;> cases y <;> rfl

theorem toOption_items (read : γ → Checked α) (value : α → β) (i : Nat) (l : List γ) :
    (Checked.items read i l).toOption.map (List.map value) =
      l.mapM fun v => (read v).toOption.map value := by
  induction l generalizing i with
  | nil => rfl
  | cons v l ih =>
    rw [List.mapM_cons, ← ih (i + 1), Checked.items, toOption_map, toOption_both, toOption_within]
    cases (read v).toOption <;> cases (Checked.items read (i + 1) l).toOption <;> rfl

theorem toOption_members (read : γ → Checked α) (value : α → β) (m : List (String × γ)) :
    (Checked.members read m).toOption.map (List.map fun e => (e.1, value e.2)) =
      m.mapM fun e => ((read e.2).toOption.map value).map fun b => (e.1, b) := by
  induction m with
  | nil => rfl
  | cons e m ih =>
    rw [List.mapM_cons, ← ih, Checked.members, toOption_map, toOption_both, toOption_within]
    cases (read e.2).toOption <;> cases (Checked.members read m).toOption <;> rfl

theorem mapM_eq_some {f : γ → Option α} {l : List γ} {as : List α} :
    l.mapM f = some as ↔ List.Forall₂ (fun v a => f v = some a) l as := by
  induction l generalizing as with
  | nil => simp [eq_comm]
  | cons v l ih =>
    simp only [List.mapM_cons, Option.bind_eq_bind, Option.bind_eq_some_iff, Option.pure_def,
      Option.some.injEq, ih, List.forall₂_cons_left_iff]
    constructor
    · rintro ⟨a, ha, more, hmore, rfl⟩
      exact ⟨a, more, ha, hmore, rfl⟩
    · rintro ⟨a, more, ha, hmore, rfl⟩
      exact ⟨a, ha, more, hmore, rfl⟩

end Results

/-! ## Rules -/

namespace Codec

/-- A bound is kept where it is not broken. -/
theorem all_eq_not_any {α : Type} {o : Option α} (broken : α → Prop) {kept : α → Prop}
    [DecidablePred broken] [DecidablePred kept] (h : ∀ a, kept a ↔ ¬broken a) :
    (o.all fun a => kept a) = !o.any fun a => broken a := by
  cases o <;> simp [h]

theorem TextRule.toOption_check (r : TextRule) (s : String) :
    (r.check s).toOption = if r.allows s then some s else none := by
  unfold check allows
  rw [all_eq_not_any (fun most => most < s.toList.length) fun _ => Nat.not_lt.symm]
  dsimp only
  cases r.most.any fun most => most < s.toList.length with
  | true => simp [Except.toOption]
  | false =>
    by_cases hleast : s.toList.length < r.least
    · simp [Except.toOption, hleast, Nat.not_le.mpr hleast]
    · have hle := Nat.not_lt.mp hleast
      cases hpattern : r.pattern with
      | none => simp [Except.toOption, hleast, hle]
      | some p => cases hp : p.holds s.toList <;> simp [Except.toOption, hleast, hle, hp]

theorem IntRule.toOption_check (r : IntRule) (i : Int) :
    (r.check i).toOption = if r.allows i then some i else none := by
  unfold check allows
  rw [all_eq_not_any (fun most => most < i) fun _ => Int.not_lt.symm,
    all_eq_not_any (fun least => i < least) fun _ => Int.not_lt.symm,
    all_eq_not_any (fun above => i ≤ above) fun _ => Int.not_le.symm]
  cases r.most.any fun most => most < i <;> cases r.least.any fun least => i < least <;>
    cases r.above.any fun above => i ≤ above <;> rfl

theorem ListRule.allows_eq (r : ListRule) (n : Nat) :
    r.allows n = (decide (r.least ≤ n) && !r.most.any fun most => most < n) := by
  unfold allows
  rw [all_eq_not_any (fun most => most < n) fun _ => Nat.not_lt.symm]

end Codec

/-! ## The library of the codecs -/

namespace Library
variable {source : Source}

theorem reads_ofCodecs {m : Json.Object} {fields : FieldShapes} {as : List Value} :
    (ofCodecs source).Reads m fields as ↔ fields.read source m = some as := by
  match fields, as with
  | .done, [] => simp [Reads, FieldShapes.read]
  | .done, a :: as => simp [Reads, FieldShapes.read]
  | .field name shape absent rest, [] =>
    simp [Reads, FieldShapes.read, Option.bind_eq_some_iff]
  | .field name shape absent rest, a :: as =>
    have hrest : (ofCodecs source).Reads m rest as ↔ rest.read source m = some as := reads_ofCodecs
    simp only [Reads, FieldShapes.read, hrest, Option.bind_eq_some_iff, Option.map_eq_some_iff,
      List.cons.injEq]
    constructor
    · rintro ⟨ha, has⟩
      exact ⟨a, ha, as, has, rfl, rfl⟩
    · rintro ⟨_, ha, _, has, rfl, rfl⟩
      exact ⟨ha, has⟩

theorem dumpFields_ofCodecs (n : Naming) (fields : FieldShapes) (as : List Value) :
    (ofCodecs source).dumpFields n fields as = fields.write n as := by
  match fields, as with
  | .done, as => rfl
  | .field .., [] => rfl
  | .field name shape absent rest, a :: as =>
    rw [dumpFields, FieldShapes.write, dumpFields_ofCodecs n rest as]
    rfl

/-- Codecs read and write as a library is documented to. -/
theorem ofCodecs_documented (source : Source) : (ofCodecs source).Documented where
  text r v a := by
    change Shape.read source (.text r) v = some a ↔ _
    cases v <;> simp [Shape.read, @eq_comm _ _ a]
  bool_self _ := rfl
  bool_some v a h := by
    obtain ⟨b, -, rfl⟩ := Option.map_eq_some_iff.mp h
    exact ⟨b, rfl⟩
  int_self r i h := by
    change ((some i).filter r.allows).map Value.int = _
    rw [Option.filter_some, if_pos h]
    rfl
  int_some r v a h := by
    obtain ⟨i, hi, rfl⟩ := Option.map_eq_some_iff.mp h
    exact ⟨i, rfl, (Option.filter_eq_some_iff.mp hi).2⟩
  number_self _ := rfl
  number_some v a h := by
    obtain ⟨x, -, rfl⟩ := Option.map_eq_some_iff.mp h
    exact ⟨x, rfl⟩
  oneOf names v a := by
    change Shape.read source (.oneOf names) v = some a ↔ _
    cases v <;> simp [Shape.read, @eq_comm _ _ a]
  object v a := by
    change Shape.read source .object v = some a ↔ _
    cases v <;> simp [Shape.read, @eq_comm _ _ a]
  list r item v a := by
    change Shape.read source (.list r item) v = some a ↔ ∃ vs as, v = .list vs ∧
      List.Forall₂ (fun v a => item.read source v = some a) vs as ∧ _
    cases v <;> simp [Shape.read, mapM_eq_some, @eq_comm _ _ a, and_assoc]
  map member v a := by
    change Shape.read source (.map member) v = some a ↔ ∃ m, ∃ t : List (String × Value),
      v = .object m ∧
        List.Forall₂ (fun e f => e.1 = f.1 ∧ member.read source e.2 = some f.2) m t ∧ _
    cases v with
    | object m =>
      have hentry : ∀ (e : String × Json) (f : String × Value),
          (member.read source e.2).map (fun a => (e.1, a)) = some f ↔
            e.1 = f.1 ∧ member.read source e.2 = some f.2 := by
        rintro e ⟨key, a⟩
        simp [and_comm]
      simp [Shape.read, mapM_eq_some, hentry, @eq_comm _ _ a]
    | _ => simp [Shape.read]
  optional_null _ := rfl
  optional_some present v h := by
    change Shape.read source (.optional present) v = present.read source v
    rw [Shape.read]
    exact h
  record fields v a := by
    change Shape.read source (.record fields) v = some a ↔ _
    cases v <;> simp [Shape.read, reads_ofCodecs, @eq_comm _ _ a]
  dump_text _ _ _ := rfl
  dump_bool _ _ := rfl
  dump_int _ _ _ := rfl
  dump_number _ _ := rfl
  dump_oneOf _ _ _ := rfl
  dump_object _ _ := rfl
  dump_list _ _ _ _ := rfl
  dump_map _ _ _ := rfl
  dump_absent _ _ := rfl
  dump_present n present a h := by
    change Shape.write n (.optional present) a = present.write n a
    rw [Shape.write, h]
    rfl
  dump_record n fields as := by
    rw [dumpFields_ofCodecs]
    rfl

end Library

/-! ## Codecs -/

namespace Codec

/-- A codec reads what is accepted for a shape, and writes what is dumped, by a value for each value
of its own. -/
structure Follows {α : Type} (c : Codec α) (shape : Shape) (value : α → Value) : Prop where
  injective : Function.Injective value
  read_eq : ∀ s v, (c.read s v).toOption.map value = shape.read s v
  write_eq : ∀ n a, c.write n a = shape.write n (value a)
  present : shape.isOptional = false → ∀ a, (value a).isAbsent = false

namespace Follows
variable {α β : Type} {c : Codec α} {shape : Shape} {value : α → Value}

theorem imap {forth : α → β} {back : β → α} (h : c.Follows shape value)
    (hback : ∀ a, back (forth a) = a) (hforth : ∀ b, forth (back b) = b) :
    (c.imap forth back).Follows shape fun b => value (back b) where
  injective := h.injective.comp (Function.LeftInverse.injective hforth)
  read_eq s v := by
    rw [← h.read_eq, Codec.imap]
    dsimp only
    rw [toOption_map, Option.map_map]
    exact congrArg (Option.map · _) (funext fun a => congrArg value (hback a))
  write_eq n b := h.write_eq n (back b)
  present hopt b := h.present hopt (back b)

theorem elsewhere (h : c.Follows shape value) : c.elsewhere.Follows shape value :=
  ⟨h.injective, h.read_eq, h.write_eq, h.present⟩

theorem textWith {r : TextRule} : (textWith r).Follows (.text r) .text where
  injective _ _ h := Value.text.inj h
  read_eq s v := by
    cases v with
    | text t =>
      rw [Codec.textWith, Shape.read]
      dsimp only
      rw [toOption_judge, TextRule.toOption_check]
      split <;> rfl
    | _ => rfl
  write_eq _ _ := rfl
  present _ _ := rfl

theorem text : Codec.text.Follows (.text {}) .text :=
  textWith

theorem bool : Codec.bool.Follows .bool .bool where
  injective _ _ h := Value.bool.inj h
  read_eq s v := by
    rw [Codec.bool, Shape.read]
    dsimp only
    rw [toOption_judge]
  write_eq _ _ := rfl
  present _ _ := rfl

theorem intWith {r : IntRule} : (intWith r).Follows (.int r) .int where
  injective _ _ h := Value.int.inj h
  read_eq s v := by
    rw [Codec.intWith, Shape.read]
    dsimp only
    rw [toOption_judge]
    cases readInt v with
    | error p => rfl
    | ok i =>
      change (r.check i).toOption.map Value.int = _
      rw [IntRule.toOption_check]
      cases hallows : r.allows i <;> simp [Except.toOption, Option.filter, hallows]
  write_eq _ _ := rfl
  present _ _ := rfl

theorem number : Codec.number.Follows .number .number where
  injective _ _ h := Value.number.inj h
  read_eq s v := by
    rw [Codec.number, Shape.read]
    dsimp only
    rw [toOption_judge]
  write_eq _ _ := rfl
  present _ _ := rfl

theorem object : Codec.object.Follows .object .object where
  injective _ _ h := Value.object.inj h
  read_eq s v := by
    cases v <;> rfl
  write_eq _ _ := rfl
  present _ _ := rfl

/-- Alternatives follow the list of their names, which tells them apart. -/
theorem oneOf [Named α] (hall : ∀ a : α, Named.ofName? (Named.name a) = some a)
    {names : List String} (hnames : names = Named.names α) :
    (Codec.oneOf : Codec α).Follows (.oneOf names) fun a => .text (Named.name a) where
  injective a b h := by
    rw [← Option.some.injEq, ← hall a, ← hall b, Value.text.inj h]
  read_eq s v := by
    cases v with
    | text t =>
      simp only [Codec.oneOf, Shape.read, hnames]
      cases hfound : (Named.ofName? t : Option α) with
      | some a =>
        have htext : Named.name a = t := by simpa using List.find?_some hfound
        have hmem : t ∈ Named.names α :=
          List.mem_map.mpr ⟨a, List.mem_of_find?_eq_some hfound, htext⟩
        rw [if_pos hmem, ← htext]
        rfl
      | none =>
        have hmem : t ∉ Named.names α := by
          intro hmem
          obtain ⟨a, -, rfl⟩ := List.mem_map.mp hmem
          cases (hall a).symm.trans hfound
        rw [if_neg hmem]
        rfl
    | _ => rfl
  write_eq _ _ := rfl
  present _ _ := rfl

theorem listWith {r : ListRule} (h : c.Follows shape value) :
    (listWith r c).Follows (.list r shape) fun as => .list (as.map value) where
  injective as bs hsame := List.map_injective_iff.mpr h.injective (Value.list.inj hsame)
  read_eq s v := by
    cases v with
    | list vs =>
      have hitems := toOption_items (c.read s) value 0 vs
      simp only [h.read_eq] at hitems
      rw [Codec.listWith, Shape.read, ← hitems]
      dsimp only [readList]
      cases hread : Checked.items (c.read s) 0 vs with
      | error is => split <;> rfl
      | ok as =>
        have hlength : (as.map value).length = vs.length := by
          rw [hread] at hitems
          exact (mapM_eq_some.mp hitems.symm).length_eq.symm
        change _ = ((some (as.map value)).filter fun as => r.allows as.length).map Value.list
        rw [Option.filter_some, hlength, ListRule.allows_eq]
        rw [List.length_map] at hlength
        cases r.most.any fun most => most < vs.length with
        | true => rw [Bool.not_true, Bool.and_false]; rfl
        | false =>
          change ((Checked.judge _ (r.check as)).toOption).map _ = _
          rw [toOption_judge, ListRule.check, hlength]
          by_cases hleast : vs.length < r.least
          · simp [Except.toOption, hleast, Nat.not_le.mpr hleast]
          · simp [Except.toOption, hleast, Nat.not_lt.mp hleast]
    | _ => rfl
  write_eq n as := by
    rw [Codec.listWith, Shape.write, List.map_map]
    exact congrArg Json.list (List.map_congr_left fun a _ => h.write_eq n a)
  present _ _ := rfl

theorem list (h : c.Follows shape value) :
    (list c).Follows (.list {} shape) fun as => .list (as.map value) :=
  h.listWith

theorem map (h : c.Follows shape value) :
    (map c).Follows (.map shape) fun t => .map (t.map fun e => (e.1, value e.2)) where
  injective t u hsame := by
    refine List.map_injective_iff.mpr ?_ (Value.map.inj hsame)
    intro e f heq
    obtain ⟨hkey, hvalue⟩ := Prod.mk.inj heq
    exact Prod.ext hkey (h.injective hvalue)
  read_eq s v := by
    cases v with
    | object m =>
      rw [Codec.map, Shape.read]
      dsimp only
      have hmembers := toOption_members (c.read s) value m
      simp only [h.read_eq] at hmembers
      rw [← hmembers, Option.map_map]
      rfl
    | _ => rfl
  write_eq n t := by
    rw [Codec.map, Shape.write, List.map_map]
    exact congrArg Json.object (List.map_congr_left fun e _ => by rw [h.write_eq]; rfl)
  present _ _ := rfl

theorem optional (h : c.Follows shape value) (hopt : shape.isOptional = false) :
    (optional c).Follows (.optional shape) fun o => (o.map value).getD .absent where
  injective o o' hsame := by
    cases o with
    | none =>
      cases o' with
      | none => rfl
      | some b => cases (congrArg Value.isAbsent hsame).trans (h.present hopt b)
    | some a =>
      cases o' with
      | none => cases (congrArg Value.isAbsent hsame).symm.trans (h.present hopt a)
      | some b => rw [h.injective hsame]
  read_eq s v := by
    cases v with
    | null => rfl
    | _ =>
      rw [Shape.read, ← h.read_eq, Codec.optional]
      · dsimp only
        rw [toOption_map, Option.map_map]
        rfl
      · nofun
  write_eq n o := by
    cases o with
    | none => rfl
    | some a =>
      rw [Option.map_some, Option.getD_some, Shape.write, h.present hopt a, ← h.write_eq]
      rfl
  present hopt' := nomatch hopt'

end Follows
end Codec

/-! ## Records -/

/-- Fields read and write what fields of a shape do, by a list of values for each value of
theirs. -/
structure Fields.Follow {α : Type} (f : Fields α) (shapes : FieldShapes) (values : α → List Value) :
    Prop where
  injective : Function.Injective values
  read_eq : ∀ s m, (f.read s m).toOption.map values = shapes.read s m
  write_eq : ∀ n a, f.write n a = shapes.write n (values a)

namespace Fields.Follow
variable {α β : Type} {shapes : FieldShapes} {values : β → List Value}

theorem done : Fields.done.Follow .done fun _ => [] where
  injective _ _ _ := rfl
  read_eq _ _ := rfl
  write_eq _ _ := rfl

theorem imap {forth : α → β} {back : β → α} {f : Fields α} {values : α → List Value}
    (h : f.Follow shapes values) (hback : ∀ a, back (forth a) = a)
    (hforth : ∀ b, forth (back b) = b) :
    (f.imap forth back).Follow shapes fun b => values (back b) where
  injective := h.injective.comp (Function.LeftInverse.injective hforth)
  read_eq s m := by
    rw [← h.read_eq, Fields.imap]
    dsimp only
    rw [toOption_map, Option.map_map]
    exact congrArg (Option.map · _) (funext fun a => congrArg values (hback a))
  write_eq n b := h.write_eq n (back b)

theorem field {name : FieldName} {c : Codec α} {shape : Shape} {value : α → Value}
    {absent : Option α} {absent' : Option Value} {shown : Json.Object} {rest : Fields β}
    (hc : c.Follows shape value) (habsent : absent' = absent.map value)
    (hrest : rest.Follow shapes values) :
    (Fields.field name c absent shown rest).Follow (.field name shape absent' shapes)
      fun p => value p.1 :: values p.2 where
  injective p q hsame := by
    obtain ⟨hhead, htail⟩ := List.cons.inj hsame
    exact Prod.ext (hc.injective hhead) (hrest.injective htail)
  read_eq s m := by
    have hsplit : ∀ (o : Option α) (r : Option β), (o.map value).bind (fun a =>
        (r.map values).map fun as => a :: as) =
          (o.bind fun a => r.map fun b => (a, b)).map fun p => value p.1 :: values p.2 := by
      intro o r
      cases o <;> cases r <;> rfl
    rw [FieldShapes.read, ← hrest.read_eq, Fields.field]
    dsimp only
    rw [toOption_both]
    unfold Fields.readField
    cases name.find? m with
    | some e => simp only [toOption_within, ← hc.read_eq, hsplit]
    | none =>
      simp only [habsent]
      cases absent <;> cases (rest.read s m).toOption <;> rfl
  write_eq n p := by
    rw [FieldShapes.write, ← hc.write_eq, ← hrest.write_eq]
    rfl

theorem required {name : FieldName} {c : Codec α} {shape : Shape} {value : α → Value}
    {rest : Fields β} (hc : c.Follows shape value) (hrest : rest.Follow shapes values) :
    (Fields.required name c rest).Follow (.field name shape none shapes)
      fun p => value p.1 :: values p.2 :=
  field hc rfl hrest

theorem withDefault {name : FieldName} {c : Codec α} {shape : Shape} {value : α → Value} {d : α}
    {d' : Value} {rest : Fields β} (hc : c.Follows shape value) (hd : d' = value d)
    (hrest : rest.Follow shapes values) :
    (Fields.withDefault name c d rest).Follow (.field name shape (some d') shapes)
      fun p => value p.1 :: values p.2 :=
  field hc (congrArg some hd) hrest

theorem withFresh {name : FieldName} {c : Codec α} {shape : Shape} {value : α → Value} {d : α}
    {d' : Value} {rest : Fields β} (hc : c.Follows shape value) (hd : d' = value d)
    (hrest : rest.Follow shapes values) :
    (Fields.withFresh name c d rest).Follow (.field name shape (some d') shapes)
      fun p => value p.1 :: values p.2 :=
  field hc (congrArg some hd) hrest

end Fields.Follow

theorem Codec.Follows.record {α : Type} {title : String} {f : Fields α} {shapes : FieldShapes}
    {values : α → List Value} (h : f.Follow shapes values) :
    (Codec.record title f).Follows (.record shapes) fun a => .record (values a) where
  injective _ _ hsame := h.injective (Value.record.inj hsame)
  read_eq s v := by
    cases v with
    | object m =>
      rw [Shape.read, ← h.read_eq, Option.map_map]
      rfl
    | _ => rfl
  write_eq n a := by
    rw [Shape.write, ← h.write_eq]
    rfl
  present _ _ := rfl

/-! ## Codecs that keep to a shape -/

namespace Codec

/-- A codec reads and writes the values of a shape. -/
def HasShape {α : Type} (c : Codec α) (shape : Shape) : Prop :=
  ∃ value, c.Follows shape value

/-- What a codec of a sound shape has read, it writes with all fields, and reads it as before. -/
theorem HasShape.readsBack {α : Type} {c : Codec α} {shape : Shape} (h : c.HasShape shape)
    (hs : shape.sound = true) {source source' : Source} {v : Json} {a : α}
    (hv : c.read source v = .ok a) (n : Naming) :
    shape.ShownIn n (c.write n a) ∧ c.read source' (c.write n a) = .ok a := by
  obtain ⟨value, h⟩ := h
  have hread : shape.read source v = some (value a) := by
    rw [← h.read_eq, hv]
    rfl
  have hfits := (Library.ofCodecs_documented source).fits shape hs hread
  have hdocumented := Library.ofCodecs_documented source'
  rw [h.write_eq]
  refine ⟨hdocumented.shownIn_dump n shape hs hfits, ?_⟩
  have hagain := (h.read_eq source' _).trans (hdocumented.validate_dump n shape hs hfits)
  obtain ⟨b, hb, hsame⟩ := Option.map_eq_some_iff.mp hagain
  obtain rfl := h.injective hsame
  exact toOption_eq_some.mp hb

end Codec
end ProjectComposer.Wire
