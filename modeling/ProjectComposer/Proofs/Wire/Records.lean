import ProjectComposer.Blueprint.Codec
import ProjectComposer.Diagnostic.Basic
import ProjectComposer.Options.Config
import ProjectComposer.Artifact.Output
import ProjectComposer.ProjectTree.Basic
import ProjectComposer.Proofs.Wire.Declared
import ProjectComposer.Proofs.Wire.Follows

/-!
Records that read back. The codecs of blueprints, outputs, trees, diagnostics and the options of
every kind of node have the shapes that are declared for them. Main statement: what any library that
keeps to its documentation has read for one of these shapes, in whatever spelling and with whatever
left out, it writes with all fields in either spelling so that it reads to the same value, and the
codecs do the same.

Each proof follows the fields of its record. A field asks that its codec has the shape of the field
and, where it may be left out, that its default is the declared one.
-/
namespace ProjectComposer
set_option autoImplicit false
open Wire

/-! ## Blueprints -/

theorem Position.hasShape : Position.codec.HasShape Declared.position :=
  ⟨_, .imap (.record (
    .field .number rfl <|
    .field .number rfl .done)) (fun _ => rfl) fun _ => rfl⟩

theorem Node.hasShape : Node.codec.HasShape Declared.node := by
  obtain ⟨_, position⟩ := Position.hasShape
  exact ⟨_, .imap (.record (
    .required .text <|
    .required .text <|
    .withFresh .object rfl <|
    .withDefault (.optional position.elsewhere rfl) rfl .done)) (fun _ => rfl) fun _ => rfl⟩

theorem Endpoint.hasShape : Endpoint.codec.HasShape Declared.endpoint :=
  ⟨_, .imap (.record (
    .required .text <|
    .required .text .done)) (fun _ => rfl) fun _ => rfl⟩

theorem Edge.hasShape : Edge.codec.HasShape Declared.edge := by
  obtain ⟨_, endpoint⟩ := Endpoint.hasShape
  exact ⟨_, .imap (.record (
    .required .text <|
    .required endpoint.elsewhere <|
    .required endpoint.elsewhere .done)) (fun _ => rfl) fun _ => rfl⟩

theorem Project.hasShape : Project.codec.HasShape Declared.project :=
  ⟨_, .imap (.record (
    .required .textWith <|
    .withDefault (.optional .text rfl) rfl <|
    .withDefault .textWith rfl <|
    .withDefault (.optional .text rfl) rfl <|
    .withDefault (.oneOf (fun a => by cases a <;> rfl) rfl) rfl <|
    .withFresh (.listWith .text) rfl .done)) (fun _ => rfl) fun _ => rfl⟩

theorem Network.hasShape : Network.codec.HasShape Declared.network :=
  ⟨_, .imap (.record (
    .required .intWith <|
    .required .text <|
    .withDefault (.optional .text rfl) rfl <|
    .withDefault (.optional .text rfl) rfl <|
    .withDefault .bool rfl .done)) (fun _ => rfl) fun _ => rfl⟩

theorem Settings.hasShape : Settings.codec.HasShape Declared.settings := by
  obtain ⟨_, project⟩ := Project.hasShape
  obtain ⟨_, network⟩ := Network.hasShape
  exact ⟨_, .imap (.record (
    .required project.elsewhere <|
    .withDefault (.optional network.elsewhere rfl) rfl <|
    .withDefault .bool rfl .done)) (fun _ => rfl) fun _ => rfl⟩

theorem Blueprint.hasShape : Blueprint.codec.HasShape Declared.blueprint := by
  obtain ⟨_, node⟩ := Node.hasShape
  obtain ⟨_, edge⟩ := Edge.hasShape
  obtain ⟨_, settings⟩ := Settings.hasShape
  exact ⟨_, .imap (.record (
    .required .text <|
    .withFresh (.list node.elsewhere) rfl <|
    .withFresh (.list edge.elsewhere) rfl <|
    .withDefault (.optional settings.elsewhere rfl) rfl .done)) (fun _ => rfl) fun _ => rfl⟩

/-! ## Outputs -/

theorem File.hasShape : File.codec.HasShape Declared.file :=
  ⟨_, .imap (.record (
    .required .text <|
    .required .text <|
    .withDefault (.optional (.oneOf (fun a => by cases a <;> rfl) rfl) rfl) rfl .done))
    (fun _ => rfl) fun _ => rfl⟩

theorem EnvVar.hasShape : EnvVar.codec.HasShape Declared.envVar :=
  ⟨_, .imap (.record (
    .required .textWith <|
    .withDefault .text rfl <|
    .withDefault .bool rfl <|
    .withDefault (.optional .text rfl) rfl <|
    .withDefault .bool rfl .done)) (fun _ => rfl) fun _ => rfl⟩

theorem Script.hasShape : Script.codec.HasShape Declared.script :=
  ⟨_, .imap (.record (
    .required .textWith <|
    .required .text <|
    .withDefault (.optional .text rfl) rfl .done)) (fun _ => rfl) fun _ => rfl⟩

theorem Doc.hasShape : Doc.codec.HasShape Declared.doc :=
  ⟨_, .imap (.record (
    .required .text <|
    .required .text <|
    .required .text .done)) (fun _ => rfl) fun _ => rfl⟩

theorem Dependency.hasShape : Dependency.codec.HasShape Declared.dependency :=
  ⟨_, .imap (.record (
    .required .textWith <|
    .required .text <|
    .withDefault .bool rfl .done)) (fun _ => rfl) fun _ => rfl⟩

theorem Output.hasShape : Output.codec.HasShape Declared.output := by
  obtain ⟨_, file⟩ := File.hasShape
  obtain ⟨_, envVar⟩ := EnvVar.hasShape
  obtain ⟨_, script⟩ := Script.hasShape
  obtain ⟨_, doc⟩ := Doc.hasShape
  obtain ⟨_, dependency⟩ := Dependency.hasShape
  exact ⟨_, .imap (.record (
    .withFresh (.list file) rfl <|
    .withFresh (.list envVar) rfl <|
    .withFresh (.list script) rfl <|
    .withFresh (.list doc) rfl <|
    .withFresh (.list dependency) rfl .done)) (fun _ => rfl) fun _ => rfl⟩

/-! ## Trees -/

theorem MergedEnvVar.hasShape : MergedEnvVar.codec.HasShape Declared.mergedEnvVar :=
  ⟨_, .imap (.record (
    .required .text <|
    .withDefault .text rfl <|
    .withDefault .bool rfl <|
    .withDefault (.optional .text rfl) rfl <|
    .withDefault .bool rfl <|
    .withFresh (.list .text) rfl .done)) (fun _ => rfl) fun _ => rfl⟩

theorem MergedScript.hasShape : MergedScript.codec.HasShape Declared.mergedScript :=
  ⟨_, .imap (.record (
    .required .text <|
    .required .text <|
    .withDefault (.optional .text rfl) rfl <|
    .withFresh (.list .text) rfl .done)) (fun _ => rfl) fun _ => rfl⟩

theorem DocEntry.hasShape : DocEntry.codec.HasShape Declared.docEntry :=
  ⟨_, .imap (.record (
    .required .text <|
    .required .text <|
    .withFresh (.list .text) rfl .done)) (fun _ => rfl) fun _ => rfl⟩

theorem MergedDependency.hasShape : MergedDependency.codec.HasShape Declared.mergedDependency :=
  ⟨_, .imap (.record (
    .required .text <|
    .required .text <|
    .withDefault .bool rfl <|
    .withFresh (.list .text) rfl .done)) (fun _ => rfl) fun _ => rfl⟩

theorem ProjectTree.hasShape : ProjectTree.codec.HasShape Declared.tree := by
  obtain ⟨_, envVar⟩ := MergedEnvVar.hasShape
  obtain ⟨_, script⟩ := MergedScript.hasShape
  obtain ⟨_, doc⟩ := DocEntry.hasShape
  obtain ⟨_, dependency⟩ := MergedDependency.hasShape
  exact ⟨_, .imap (.record (
    .withFresh (.map .text) rfl <|
    .withFresh (.map (.list .text)) rfl <|
    .withFresh (.list envVar) rfl <|
    .withFresh (.list script) rfl <|
    .withFresh (.list doc) rfl <|
    .withFresh (.list dependency) rfl <|
    .withFresh (.list (.list .text)) rfl .done)) (fun _ => rfl) fun _ => rfl⟩

/-! ## Diagnostics -/

theorem Diagnostic.hasShape : Diagnostic.codec.HasShape Declared.diagnostic :=
  ⟨_, .imap (.record (
    .withDefault (.oneOf (fun a => by cases a <;> rfl) rfl) rfl <|
    .required .text <|
    .required .text <|
    .withDefault (.optional .text rfl) rfl <|
    .withDefault (.optional .text rfl) rfl <|
    .withDefault (.optional .text rfl) rfl <|
    .withFresh (.list .text) rfl .done)) (fun _ => rfl) fun _ => rfl⟩

/-! ## Options -/

namespace Options

/-- The values of the options of every kind in front of those of a kind. -/
def Labels.values {β : Type} (rest : β → List Wire.Value) (p : Labels × β) : List Wire.Value :=
  (p.1.label.map .text).getD .absent :: (p.1.description.map .text).getD .absent :: rest p.2

theorem Labels.follow {β : Type} {rest : Fields β} {shapes : FieldShapes}
    {values : β → List Wire.Value} (h : rest.Follow shapes values) :
    (Labels.fields rest).Follow
      (Declared.withDefault "label" "label" (.optional (Declared.name (some 100))) .absent <|
        Declared.withDefault "description" "description" (.optional (.text { most := some 500 }))
          .absent shapes) (Labels.values values) :=
  .imap (.withDefault (.optional .textWith rfl) rfl <|
    .withDefault (.optional .textWith rfl) rfl h) (fun _ => rfl) fun _ => rfl

theorem FrontendScaffold.hasShape : FrontendScaffold.codec.HasShape Declared.frontendScaffold :=
  ⟨_, .imap (.record (Labels.follow <|
    .withDefault (.oneOf (fun a => by cases a <;> rfl) rfl) rfl <|
    .withDefault (.oneOf (fun a => by cases a <;> rfl) rfl) rfl <|
    .withDefault (.oneOf (fun a => by cases a <;> rfl) rfl) rfl <|
    .withDefault .bool rfl <|
    .withDefault .bool rfl <|
    .withDefault .bool rfl <|
    .withDefault .bool rfl <|
    .withDefault .bool rfl <|
    .withDefault (.oneOf (fun a => by cases a <;> rfl) rfl) rfl <|
    .withDefault .bool rfl <|
    .withDefault (.oneOf (fun a => by cases a <;> rfl) rfl) rfl <|
    .withDefault .bool rfl <|
    .withDefault .bool rfl <|
    .withDefault .textWith rfl .done)) (fun _ => rfl) fun _ => rfl⟩

theorem WalletAuth.hasShape : WalletAuth.codec.HasShape Declared.walletAuth :=
  ⟨_, .imap (.record (Labels.follow <|
    .withDefault (.oneOf (fun a => by cases a <;> rfl) rfl) rfl <|
    .withDefault .bool rfl <|
    .withDefault .bool rfl <|
    .withFresh (.list (.oneOf (fun a => by cases a <;> rfl) rfl)) rfl <|
    .withDefault .bool rfl <|
    .withDefault (.optional .textWith rfl) rfl .done)) (fun _ => rfl) fun _ => rfl⟩

theorem NftContract.hasShape : NftContract.codec.HasShape Declared.nftContract :=
  ⟨_, .imap (.record (Labels.follow <|
    .withDefault .textWith rfl <|
    .withDefault .textWith rfl <|
    .withDefault .text rfl <|
    .withDefault (.oneOf (fun a => by cases a <;> rfl) rfl) rfl <|
    .withFresh (.list (.oneOf (fun a => by cases a <;> rfl) rfl)) rfl <|
    .withDefault .bool rfl <|
    .withDefault (.optional .textWith rfl) rfl .done)) (fun _ => rfl) fun _ => rfl⟩

theorem TelegramNotifications.hasShape :
    TelegramNotifications.codec.HasShape Declared.telegramNotifications :=
  ⟨_, .imap (.record (Labels.follow <|
    .withFresh (.list (.oneOf (fun a => by cases a <;> rfl) rfl)) rfl <|
    .withDefault (.oneOf (fun a => by cases a <;> rfl) rfl) rfl .done)) (fun _ => rfl) fun _ => rfl⟩

theorem TelegramCommands.hasShape : TelegramCommands.codec.HasShape Declared.telegramCommands :=
  ⟨_, .imap (.record (Labels.follow <|
    .withDefault (.oneOf (fun a => by cases a <;> rfl) rfl) rfl <|
    .withDefault (.oneOf (fun a => by cases a <;> rfl) rfl) rfl <|
    .withFresh (.listWith (.oneOf (fun a => by cases a <;> rfl) rfl)) rfl <|
    .withDefault .bool rfl <|
    .withDefault .bool rfl .done)) (fun _ => rfl) fun _ => rfl⟩

theorem QualityGates.hasShape : QualityGates.codec.HasShape Declared.qualityGates :=
  ⟨_, .imap (.record (Labels.follow <|
    .withDefault (.oneOf (fun a => by cases a <;> rfl) rfl) rfl <|
    .withDefault (.oneOf (fun a => by cases a <;> rfl) rfl) rfl <|
    .withDefault (.oneOf (fun a => by cases a <;> rfl) rfl) rfl <|
    .withDefault (.oneOf (fun a => by cases a <;> rfl) rfl) rfl <|
    .withDefault .bool rfl <|
    .withDefault .bool rfl <|
    .withDefault .intWith rfl <|
    .withDefault .bool rfl <|
    .withDefault .bool rfl .done)) (fun _ => rfl) fun _ => rfl⟩

end Options

/-! ## All records -/

/-- What a library has accepted for a shape it dumps under the names of either spelling with all of
its fields, and accepts the dump as the same value. -/
def Wire.Library.ReadsBack (L : Library) (d : Shape) : Prop :=
  ∀ v a, L.validate d v = some a → ∀ n,
    d.ShownIn n (L.dump n d a) ∧ L.validate d (L.dump n d a) = some a

/-- The codec has the shape, and what it has read it writes with all fields and reads as before. -/
structure Wire.Codec.Keeps {α : Type} (c : Codec α) (d : Shape) : Prop where
  hasShape : c.HasShape d
  readsBack : ∀ source v a, c.read source v = .ok a → ∀ source' n,
    d.ShownIn n (c.write n a) ∧ c.read source' (c.write n a) = .ok a

theorem Wire.Codec.HasShape.keeps {α : Type} {c : Codec α} {d : Shape} (h : c.HasShape d)
    (hs : d.sound = true) : c.Keeps d :=
  ⟨h, fun _ _ _ hread _ n => h.readsBack hs hread n⟩

theorem Declared.records_sound : records.all Shape.sound = true := by
  decide +kernel

theorem records_readBack (L : Library) (h : L.Documented) :
    (∀ d ∈ Declared.records, L.ReadsBack d) ∧
    Blueprint.codec.Keeps Declared.blueprint ∧
    Output.codec.Keeps Declared.output ∧
    ProjectTree.codec.Keeps Declared.tree ∧
    Diagnostic.codec.Keeps Declared.diagnostic ∧
    Options.FrontendScaffold.codec.Keeps Declared.frontendScaffold ∧
    Options.WalletAuth.codec.Keeps Declared.walletAuth ∧
    Options.NftContract.codec.Keeps Declared.nftContract ∧
    Options.TelegramNotifications.codec.Keeps Declared.telegramNotifications ∧
    Options.TelegramCommands.codec.Keeps Declared.telegramCommands ∧
    Options.QualityGates.codec.Keeps Declared.qualityGates := by
  have hsound := List.all_eq_true.mp Declared.records_sound
  refine ⟨fun d hd v a hv n => h.readsBack (hsound d hd) hv n, ?_⟩
  simp only [Declared.records, List.forall_mem_cons] at hsound
  obtain ⟨blueprint, output, tree, diagnostic, frontend, wallet, nft, notifications, commands,
    gates, -⟩ := hsound
  exact ⟨Blueprint.hasShape.keeps blueprint, Output.hasShape.keeps output,
    ProjectTree.hasShape.keeps tree, Diagnostic.hasShape.keeps diagnostic,
    Options.FrontendScaffold.hasShape.keeps frontend, Options.WalletAuth.hasShape.keeps wallet,
    Options.NftContract.hasShape.keeps nft,
    Options.TelegramNotifications.hasShape.keeps notifications,
    Options.TelegramCommands.hasShape.keeps commands, Options.QualityGates.hasShape.keeps gates⟩

/-- A number in a text, words and a number for truth values, one field under both of its names. -/
theorem records_readBack_coerced :
    let L := Library.ofCodecs .memory
    let given : Json := .object [
      ("coverage_threshold", .int 200), ("coverageThreshold", .text " 65.0"),
      ("typecheck", .text "Off"), ("dependency_audit", .int 0), ("linter", .text "eslint"),
      ("unknown", .null)]
    let gates := Value.record [.absent, .absent, .text "github-actions", .text "vitest",
      .text "eslint", .text "biome", .bool false, .bool true, .int 65, .bool true, .bool false]
    let written := L.dump .snake Declared.qualityGates gates
    L.Documented ∧ L.validate Declared.qualityGates given = some gates ∧
    written.get? "coverage_threshold" = some (.int 65) ∧
    written.get? "typecheck" = some (.bool false) ∧
    Declared.qualityGates.ShownIn .snake written ∧
    L.validate Declared.qualityGates written = some gates := by
  intro L given gates written
  have hdocumented : L.Documented := Library.ofCodecs_documented .memory
  have hgates : Declared.qualityGates ∈ Declared.records := by simp [Declared.records]
  have hgiven : L.validate Declared.qualityGates given = some gates := by rfl
  exact ⟨hdocumented, hgiven, rfl, rfl,
    (records_readBack L hdocumented).1 _ hgates given gates hgiven .snake⟩

end ProjectComposer
