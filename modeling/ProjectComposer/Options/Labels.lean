import ProjectComposer.Wire.Record

/-!
Labels: the options that nodes of every kind share, a name and a description for people to read.
-/
namespace ProjectComposer.Options
set_option autoImplicit false
open Wire

structure Labels where
  label : Option String := none
  description : Option String := none
  deriving DecidableEq, Repr

/-- Names shown to people: one to a hundred characters. -/
def Labels.nameRule : Codec.TextRule :=
  { least := 1, most := some 100 }

/-- The shared fields in front of those of a kind. -/
def Labels.fields {β : Type} (rest : Fields β) : Fields (Labels × β) :=
  let both : Fields (Option String × Option String × β) :=
    .withDefault (.plain "label") (.optional (.textWith Labels.nameRule)) none <|
    .withDefault (.plain "description") (.optional (.textWith { most := some 500 })) none rest
  both.imap (fun (label, description, r) => (⟨label, description⟩, r))
    (fun (c, r) => (c.label, c.description, r))

end ProjectComposer.Options
