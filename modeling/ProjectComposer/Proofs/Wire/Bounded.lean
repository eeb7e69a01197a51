import ProjectComposer.Blueprint.Codec
import ProjectComposer.Proofs.Except
import ProjectComposer.Proofs.Json.Bounded

/-!
Blueprints from documents. An integer that a codec reads from a bounded value can be written: the
value has it already, or it is a word, or its numeral is not too long. The chain id of a blueprint
that is read from a document therefore has a text.

Each way to build a codec carries over what is known of its parts; a field of no interest is passed
over.
-/
namespace ProjectComposer
set_option autoImplicit false
open Wire

namespace Wire

/-! ## Integers -/

theorem isWritable_of_isWordInside {i : Int} (h : Codec.isWordInside i = true) :
    Numeral.isWritable i = true := by
  unfold Codec.isWordInside Codec.isWord64 Codec.leastWord64 at h
  simp only [Bool.and_eq_true, decide_eq_true_eq] at h
  have hword : i.natAbs < 10 ^ 19 := by omega
  exact Numeral.isWritable_iff.mpr (hword.trans_le (Nat.pow_le_pow_right (by decide) (by decide)))

theorem Codec.IntRule.check_eq_ok {r : Codec.IntRule} {i i' : Int} (h : r.check i = .ok i') :
    i = i' := by
  unfold check at h
  split at h
  · cases h
  · split at h
    · cases h
    · split at h
      · cases h
      · exact Except.ok.inj h

theorem isWritable_readInt {v : Json} {i : Int} (hv : v.Bounded) (h : Codec.readInt v = .ok i) :
    Numeral.isWritable i = true := by
  cases hv with
  | null | list | object => cases h
  | bool b =>
    cases h
    exact isWritable_of_isWordInside (by cases b <;> decide)
  | int hi =>
    cases h
    exact hi
  | real x =>
    unfold Codec.readInt at h
    dsimp only at h
    split at h
    · cases h
    · split at h
      · split at h
        · next hinside =>
          cases h
          exact isWritable_of_isWordInside hinside
        · cases h
      · cases h
  | text s =>
    unfold Codec.readInt at h
    dsimp only at h
    split at h
    · next hs =>
      cases h
      exact Numeral.isWritable_ofConfig hs
    · cases h
    · cases h

/-! ## Codecs -/

/-- What a codec reads from a bounded value has a property. -/
def Codec.Yields {α : Type} (c : Codec α) (P : α → Prop) : Prop :=
  ∀ s v a, v.Bounded → c.read s v = .ok a → P a

/-- What the codecs of fields read from bounded members has a property. -/
def Fields.Yields {α : Type} (f : Fields α) (P : α → Prop) : Prop :=
  ∀ s m a, (∀ e ∈ m, e.2.Bounded) → f.read s m = .ok a → P a

section Codecs
variable {α β : Type} {P : α → Prop} {Q : β → Prop}

theorem Checked.judge_eq_ok {v : Json} {x : Except Problem α} {a : α}
    (h : Checked.judge v x = .ok a) : x = .ok a := by
  cases x with
  | ok a' =>
    cases h
    rfl
  | error p => cases h

theorem Codec.validate_eq_ok {c : Codec α} {name : String} {source : Source} {v : Json} {a : α}
    (h : c.validate name source v = .ok a) : c.read source v = .ok a := by
  unfold Codec.validate at h
  split at h
  · next hread =>
    cases h
    exact hread
  · cases h

theorem Codec.Yields.imap {c : Codec α} {forth : α → β} {back : β → α} (h : c.Yields P)
    (hforth : ∀ a, P a → Q (forth a)) : (c.imap forth back).Yields Q := by
  intro s v b hv hread
  obtain ⟨a, ha, rfl⟩ := map_eq_ok.mp hread
  exact hforth a (h s v a hv ha)

theorem Codec.Yields.optional {c : Codec α} (h : c.Yields P) :
    (Codec.optional c).Yields fun o => ∀ a ∈ o, P a := by
  rintro s v o hv hread a rfl
  unfold Codec.optional at hread
  dsimp only at hread
  split at hread
  · cases hread
  · obtain ⟨a', ha, hsome⟩ := map_eq_ok.mp hread
    cases hsome
    exact h s v a hv ha

theorem Codec.Yields.record {name : String} {f : Fields α} (h : f.Yields P) :
    (Codec.record name f).Yields P := by
  intro s v a hv hread
  cases hv with
  | object hmembers => exact h s _ a hmembers hread
  | _ => cases hread

theorem Codec.Yields.intWith {r : Codec.IntRule} :
    (Codec.intWith r).Yields fun i => Numeral.isWritable i = true := by
  intro s v i hv hread
  obtain ⟨i', hi, hcheck⟩ := bind_eq_ok.mp (Checked.judge_eq_ok hread)
  obtain rfl := Codec.IntRule.check_eq_ok hcheck
  exact isWritable_readInt hv hi

section Fields
variable {f : FieldName} {c : Codec α} {absent : Option α} {shown : Json.Object} {rest : Fields β}

theorem FieldName.mem_of_find? {m : Json.Object} {key : String} {v : Json}
    (h : f.find? m = some (key, v)) : (key, v) ∈ m := by
  unfold FieldName.find? at h
  split at h
  · next hfound =>
    cases h
    exact Table.mem_of_get? hfound
  · obtain ⟨v', hfound, hpair⟩ := Option.map_eq_some_iff.mp h
    cases hpair
    exact Table.mem_of_get? hfound

theorem Fields.Yields.field (h : c.Yields P) (habsent : ∀ a ∈ absent, P a) :
    (Fields.field f c absent shown rest).Yields fun p => P p.1 := by
  intro s m p hm hread
  obtain ⟨hfirst, -⟩ := Checked.both_eq_ok.mp hread
  unfold Fields.readField at hfirst
  split at hfirst
  · next key v hfound =>
    exact h s v p.1 (hm _ (FieldName.mem_of_find? hfound)) (Checked.within_eq_ok.mp hfirst)
  · cases absent with
    | none => cases hfirst
    | some a => exact habsent _ (congrArg some (Except.ok.inj hfirst))

/-- A field that does not matter is passed over. -/
theorem Fields.Yields.over (h : rest.Yields Q) :
    (Fields.field f c absent shown rest).Yields fun p => Q p.2 := by
  intro s m p hm hread
  exact h s m p.2 hm (Checked.both_eq_ok.mp hread).2

end Fields
end Codecs
end Wire

/-! ## Blueprints -/

theorem Network.codec_yields : Network.codec.Yields fun n => n.isWritable = true :=
  .imap (.record (.field .intWith (by simp))) fun _ h => h

theorem Settings.codec_yields : Settings.codec.Yields fun s => s.isWritable = true := by
  have hnetwork : (Codec.optional Network.codec.elsewhere).Yields fun o =>
    ∀ n ∈ o, n.isWritable = true := .optional Network.codec_yields
  refine .imap (.record (.over (.field hnetwork (by simp)))) fun p hp => ?_
  rw [Settings.isWritable, Option.all_eq_true]
  exact hp

/-- A blueprint that is read from a document has settings that can be written. -/
theorem Blueprint.isWritable_of_document {text : String} {b : Blueprint}
    (h : ofDocument text = .ok b) : b.resolvedSettings.isWritable = true := by
  have hsettings : (Codec.optional Settings.codec.elsewhere).Yields fun o =>
    ∀ s ∈ o, s.isWritable = true := .optional Settings.codec_yields
  have hyields : codec.Yields fun b => ∀ s ∈ b.settings, s.isWritable = true :=
    .imap (.record (.over (.over (.over (.field hsettings (by simp)))))) fun _ h => h
  unfold ofDocument at h
  split at h
  · next v hv =>
    have hread : codec.read .document v = .ok b := Codec.validate_eq_ok h
    have hgiven := hyields .document v b (Json.bounded_parseDocument? hv) hread
    unfold resolvedSettings
    cases hb : b.settings with
    | none => rfl
    | some s => exact hgiven s hb
  · cases h

end ProjectComposer
