import ProjectComposer.BuiltIn.Registry

/-!
Where the built-in generators put things. A generator has one footprint under a layout: the sites of
all files and the paths of all documents that it asks for with some options. Whatever the node and
the context, it returns an output, and nothing in it lies outside that footprint.
-/
namespace ProjectComposer
set_option autoImplicit false

/-! ## Sites -/

/-- What decides on the final path of a file. -/
structure Site where
  path : String
  category : Option Category := none
  deriving DecidableEq, Repr

def File.site (f : File) : Site :=
  ⟨f.path, f.category⟩

/-- The site of the files at a site once they are mapped. -/
def Site.mapped (s : Site) (m : Mappings) : Site :=
  (File.mapped ⟨s.path, "", s.category⟩ m).site

theorem File.site_mapped (f : File) (m : Mappings) : (f.mapped m).site = f.site.mapped m := by
  obtain ⟨path, content, category⟩ := f
  cases category with
  | some c => rfl
  | none =>
    unfold Site.mapped File.site File.mapped File.mappedPath
    dsimp only
    split
    · rfl
    · rfl

/-! ## Footprints -/

/-- The sites and the paths of documents that a generator may ask for. -/
structure Footprint where
  sites : List Site
  docs : List String := []

/-- An output that asks for nothing outside a footprint. -/
structure Output.Within (o : Output) (s : Footprint) : Prop where
  site_mem : ∀ f ∈ o.files, f.site ∈ s.sites
  path_mem : ∀ d ∈ o.docs, d.path ∈ s.docs

/-- A generator returns an output, and one that stays within the footprint for the layout of its
context; only the scaffold may be kept from it, by a chain id that cannot be written. -/
def Plugin.KeepsTo (p : Plugin) (s : Layout → Footprint) : Prop :=
  ∀ n c, (∃ o, (p.generate n c).result = .ok (.output o) ∧ o.Within (s c.layout)) ∨
    p.id = "frontend-scaffold" ∧ c.settings.isWritable = false ∧
      (p.generate n c).result = .error (.raised .overlong)

/-! ## Generators -/

namespace BuiltIn

theorem sublist_included {α : Type} (items : List (α × Bool)) :
    (included items).Sublist (items.map Prod.fst) :=
  List.filter_sublist.map Prod.fst

theorem forall_mem_included {α : Type} {items : List (α × Bool)} {met : α → Prop}
    (h : ∀ a ∈ items.map Prod.fst, met a) : ∀ a ∈ included items, met a :=
  fun a ha => h a ((sublist_included items).subset ha)

namespace Frontend

/-- The sites of files without a category, which stand in a directory of the layout. -/
def sitesIn (directory : String) (names : List String) : List Site :=
  names.map fun name => ⟨directory ++ ("/" ++ name), none⟩

def rootSites (l : Layout) : List Site :=
  sitesIn l.frontendPath ["next.config.js", "tsconfig.json", "tailwind.config.js"] ++
    sitesIn (pagesRoot l) ["_app.tsx", "index.tsx"]

def partSites : List Site := [
  ⟨"layout.tsx", some .frontendApp⟩,
  ⟨"page.tsx", some .frontendApp⟩,
  ⟨"providers.tsx", some .frontendApp⟩,
  ⟨"providers.tsx", some .frontendLib⟩,
  ⟨"wagmi.ts", some .frontendLib⟩,
  ⟨"chains.ts", some .frontendLib⟩,
  ⟨"utils.ts", some .frontendLib⟩,
  ⟨"wallet-button.tsx", some .frontendComponents⟩,
  ⟨"env.d.ts", some .frontendTypes⟩,
  ⟨"globals.css", some .frontendStyles⟩,
  ⟨"useContracts.ts", some .frontendHooks⟩]

def footprint (l : Layout) : Footprint where
  sites := rootSites l ++ partSites
  docs := ["docs/frontend/README.md"]

theorem site_mapped (s : Site) : s.mapped plugin.mappings = s := by
  obtain ⟨path, category⟩ := s
  cases category <;> rfl

theorem site_mem (o : Options.FrontendScaffold) (c : Context) :
    ∀ f ∈ files o c, f.site ∈ (footprint c.layout).sites := by
  have hpages : ∀ f ∈ pageFiles o c.layout, f.site ∈ (footprint c.layout).sites := by
    unfold pageFiles
    cases o.projectStructure with
    | appRouter => simp [footprint, rootSites, sitesIn, partSites, File.site]
    | pagesRouter => simp [footprint, rootSites, sitesIn, partSites, File.site]
  have hstyles : ∀ f ∈ styleFiles o c.layout, f.site ∈ (footprint c.layout).sites := by
    unfold styleFiles
    split
    · simp [footprint, rootSites, sitesIn, partSites, File.site]
    · simp
  have hhooks : ∀ f ∈ hookFiles o (c.wired "contract-in"), f.site ∈ (footprint c.layout).sites := by
    unfold hookFiles
    dsimp only
    split
    · simp [footprint, rootSites, sitesIn, partSites, File.site]
    · simp
  unfold files
  simp only [List.forall_mem_append]
  refine ⟨⟨⟨⟨?_, hpages⟩, ?_⟩, hstyles⟩, hhooks⟩
  · simp [footprint, rootSites, sitesIn, partSites, File.site]
  · simp [footprint, rootSites, sitesIn, partSites, File.site]

theorem isWritable_network (c : Context) : (network c).isWritable = c.settings.isWritable := by
  unfold network Settings.isWritable
  cases c.settings.network with
  | some n => rfl
  | none => decide +kernel

theorem eq_plugin_of_id {p : Plugin} (hp : p ∈ plugins) (hid : p.id = "frontend-scaffold") :
    p = plugin := by
  simp only [plugins, List.mem_cons, List.not_mem_nil, or_false] at hp
  rcases hp with rfl | rfl | rfl | rfl | rfl | rfl
  · rfl
  all_goals exact absurd hid (by decide)

theorem result_generate (n : Node) (c : Context) : (plugin.generate n c).result =
    if c.settings.isWritable then .ok (.output (output (options c.config) c))
    else .error (.raised .overlong) := by
  rw [← isWritable_network]
  change (generate n c).result = _
  unfold generate
  dsimp only
  split <;> rfl

theorem result_eq_ok {n : Node} {c : Context} {o : Output}
    (h : (plugin.generate n c).result = .ok (.output o)) :
    c.settings.isWritable = true ∧ o = output (options c.config) c := by
  rw [result_generate] at h
  split at h
  · next hwritable => exact ⟨hwritable, (Returned.output.inj (Except.ok.inj h)).symm⟩
  · cases h

theorem keepsTo : plugin.KeepsTo footprint := by
  intro n c
  rw [result_generate]
  split
  · refine .inl ⟨_, rfl, site_mem _ c, ?_⟩
    simp [output, footprint]
  · next hnot => exact .inr ⟨rfl, Bool.not_eq_true _ ▸ hnot, rfl⟩

end Frontend

namespace WalletAuth

def footprint : Footprint where
  sites := [⟨"auth/wallet-auth.ts", some .frontendLib⟩]

theorem keepsTo : plugin.KeepsTo fun _ => footprint := by
  intro n c
  refine .inl ⟨output (options c.config), rfl, ?_, ?_⟩
  · simp [output, footprint, File.site]
  · simp [output]

end WalletAuth

namespace NftContract

def footprint : Footprint where
  sites := [
    ⟨"contract/Cargo.toml", none⟩,
    ⟨"contract/src/lib.rs", none⟩,
    ⟨"src/cn.ts", none⟩,
    ⟨"src/ERC721NFTPanel.tsx", none⟩,
    ⟨"deploy-erc721.ts", some .contractScripts⟩,
    ⟨"erc721-nft.ts", some .frontendLib⟩]
  docs := ["docs/erc721-nft.md"]

theorem keepsTo : plugin.KeepsTo fun _ => footprint := by
  intro n c
  refine .inl ⟨output (options c.config), rfl, ?_, ?_⟩
  · simp [output, footprint, File.site]
  · simp [output, footprint]

end NftContract

namespace TelegramNotifications

def footprint : Footprint where
  sites := [
    ⟨"src/lib/telegram/notify-service.ts", none⟩,
    ⟨"src/lib/telegram/templates.ts", none⟩,
    ⟨"src/lib/telegram/bot-client.ts", none⟩,
    ⟨"src/lib/telegram/types.ts", none⟩]

theorem keepsTo : plugin.KeepsTo fun _ => footprint := by
  intro n c
  refine .inl ⟨output (options c.config), rfl, ?_, ?_⟩
  · simp [output, footprint, File.site]
  · simp [output]

end TelegramNotifications

namespace TelegramCommands

def footprint : Footprint where
  sites := [
    ⟨"src/lib/telegram/bot-client.ts", none⟩,
    ⟨"src/lib/telegram/composers/commands.ts", none⟩,
    ⟨"telegram/webhook/route.ts", some .backendRoutes⟩,
    ⟨"telegram-bot.ts", some .contractScripts⟩]

theorem keepsTo : plugin.KeepsTo fun _ => footprint := by
  intro n c
  refine .inl ⟨output (options c.config), rfl, ?_, ?_⟩
  · simp only [output, shared, bot, delivery, Output.append]
    cases (options c.config).deliveryMethod with
    | webhook => simp [footprint, File.site]
    | polling => simp [footprint, File.site]
  · simp only [output, shared, bot, delivery, Output.append]
    cases (options c.config).deliveryMethod with
    | webhook => simp
    | polling => simp

end TelegramCommands

namespace QualityGates

def footprint : Footprint where
  sites := [
    ⟨".github/workflows/ci.yml", some .root⟩,
    ⟨".gitlab-ci.yml", some .root⟩,
    ⟨".circleci/config.yml", some .root⟩,
    ⟨"biome.json", some .root⟩,
    ⟨"eslint.config.js", some .root⟩,
    ⟨".prettierrc", some .root⟩,
    ⟨".prettierignore", some .root⟩,
    ⟨"vitest.config.ts", some .root⟩,
    ⟨"jest.config.js", some .root⟩,
    ⟨"tsconfig.json", some .root⟩,
    ⟨".husky/pre-commit", some .root⟩,
    ⟨".lintstagedrc", some .root⟩,
    ⟨".editorconfig", some .root⟩]
  docs := ["docs/development/quality.md"]

theorem site_mem (o : Options.QualityGates) (project : String) :
    ∀ f ∈ files o project, f.site ∈ footprint.sites := by
  have hci : (ciFile o project).site ∈ footprint.sites := by
    unfold ciFile
    cases o.ciProvider with
    | githubActions => simp [footprint, File.site]
    | gitlabCi => simp [footprint, File.site]
    | circleci => simp [footprint, File.site]
  have htests : ∀ f ∈ testFiles o, f.site ∈ footprint.sites := by
    unfold testFiles
    cases o.testFramework with
    | vitest => simp [footprint, File.site]
    | jest => simp [footprint, File.site]
    | mocha => simp
  unfold files styleFiles
  simp only [List.forall_mem_append, List.forall_mem_singleton]
  refine ⟨⟨⟨hci, forall_mem_included ?_⟩, htests⟩, forall_mem_included ?_⟩
  · simp [footprint, File.site]
  · simp [footprint, File.site]

theorem keepsTo : plugin.KeepsTo fun _ => footprint := by
  intro n c
  refine .inl ⟨output (options c.config) c.settings.project.name, rfl, site_mem _ _, ?_⟩
  simp [output, footprint]

end QualityGates

/-! ## All generators -/

/-- The built-in plugins with their footprints. -/
def footprints : List (Plugin × (Layout → Footprint)) := [
  (Frontend.plugin, Frontend.footprint),
  (WalletAuth.plugin, fun _ => WalletAuth.footprint),
  (NftContract.plugin, fun _ => NftContract.footprint),
  (TelegramNotifications.plugin, fun _ => TelegramNotifications.footprint),
  (TelegramCommands.plugin, fun _ => TelegramCommands.footprint),
  (QualityGates.plugin, fun _ => QualityGates.footprint)]

theorem map_fst_footprints : footprints.map Prod.fst = plugins :=
  rfl

theorem keepsTo_of_mem {e : Plugin × (Layout → Footprint)} (he : e ∈ footprints) :
    e.1.KeepsTo e.2 := by
  simp only [footprints, List.mem_cons, List.not_mem_nil, or_false] at he
  rcases he with rfl | rfl | rfl | rfl | rfl | rfl
  · exact Frontend.keepsTo
  · exact WalletAuth.keepsTo
  · exact NftContract.keepsTo
  · exact TelegramNotifications.keepsTo
  · exact TelegramCommands.keepsTo
  · exact QualityGates.keepsTo

end BuiltIn
end ProjectComposer
