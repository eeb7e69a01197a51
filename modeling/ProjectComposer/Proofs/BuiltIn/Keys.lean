import Mathlib.Data.List.Lattice
import Mathlib.Data.List.Pairwise
import ProjectComposer.Proofs.BuiltIn.Footprint
import ProjectComposer.Proofs.Path.LastName
import ProjectComposer.Proofs.ProjectTree.Disputes

/-!
The keys of the built-in generators. Whatever its options, a generator puts things under a fixed
stock of keys alone, one thing at most under each of them: files and documents by their last names,
defaults of variables, scripts. The stocks of two generators have nothing in common but two names of
files and one variable, and all generators take a package in the same version.
-/
namespace ProjectComposer
set_option autoImplicit false

/-! ## Outputs by key -/

/-- The key of a topic that decides on clashes: of a path only the last name. -/
def Topic.short : Topic → String → String
  | .content, path => Path.lastName path
  | _, key => key

/-- The last name of the files at a site once they are mapped. -/
def Site.lastName (m : Mappings) (s : Site) : String :=
  Path.lastName (s.mapped m).path

/-- What an output puts under short keys. -/
def Output.offers (o : Output) (m : Mappings) : Topic → Table String
  | .content => o.files.map (fun f => (Path.lastName (f.mapped m).path, f.content)) ++
      o.docs.map fun d => (Path.lastName d.path, d.render)
  | .default => o.envVars.filterMap fun v => v.default.map fun s => (v.key, s)
  | .command => o.scripts.map fun s => (s.name, s.command)
  | .version => o.dependencies.map fun d => (d.name, Merge.trimmedVersion d)

theorem Output.keys_contents (o : Output) (m : Mappings) : (o.offers m .content).keys =
    (o.files.map File.site).map (Site.lastName m) ++ (o.docs.map Doc.path).map Path.lastName := by
  have hpath (f : File) : (f.mapped m).path = (f.site.mapped m).path :=
    congrArg Site.path (File.site_mapped f m)
  simp [offers, Table.keys, Site.lastName, hpath, Function.comp_def]

theorem Output.keys_defaults (o : Output) (m : Mappings) : (o.offers m .default).keys =
    o.envVars.filterMap fun v => v.default.map fun _ => v.key := by
  simp [offers, Table.keys, List.map_filterMap, Function.comp_def]

theorem Output.keys_commands (o : Output) (m : Mappings) :
    (o.offers m .command).keys = o.scripts.map Script.name := by
  simp [offers, Table.keys, Function.comp_def]

namespace BuiltIn

/-- Every package, in the version that all generators take it in. -/
def Package.all : List Package :=
  [biome, rainbowKit, reactQuery, nodeTypes, reactTypes, vitestCoverage, eslint, grammy, husky, jest,
    lintStaged, mocha, next, prettier, react, reactDom, tailwind, telegraf, tsNode, typescript, viem,
    vitest, wagmi]

/-- The keys that a generator has for itself: last names of files and documents, variables with a
default, scripts. Packages are for all. Keys are distinct, which is quick to see of their
characters. -/
structure Keys where
  names : List String
  defaults : List String := []
  commands : List String := []
  nodup_names : (names.map String.toList).Nodup := by decide +kernel
  nodup_defaults : (defaults.map String.toList).Nodup := by decide +kernel
  nodup_commands : (commands.map String.toList).Nodup := by decide +kernel

def Keys.of (k : Keys) : Topic → List String
  | .content => k.names
  | .default => k.defaults
  | .command => k.commands
  | .version => []

theorem Keys.nodup_of (k : Keys) (topic : Topic) : (k.of topic).Nodup := by
  cases topic with
  | content => exact k.nodup_names.of_map
  | default => exact k.nodup_defaults.of_map
  | command => exact k.nodup_commands.of_map
  | version => exact .nil

/-- An output that uses keys of a generator alone, each of them once at most, and packages in the
versions that all generators share. -/
structure Uses (o : Output) (m : Mappings) (k : Keys) : Prop where
  names : (o.offers m .content).keys.Sublist k.names
  defaults : (o.offers m .default).keys.Sublist k.defaults
  commands : (o.offers m .command).keys.Sublist k.commands
  packages : ∀ d ∈ o.dependencies, ∃ p ∈ Package.all, d = p.runtime ∨ d = p.development

theorem Uses.sublist {o : Output} {m : Mappings} {k : Keys} (h : Uses o m k) {topic : Topic}
    (hne : topic ≠ .version) : (o.offers m topic).keys.Sublist (k.of topic) := by
  cases topic with
  | content => exact h.names
  | default => exact h.defaults
  | command => exact h.commands
  | version => exact absurd rfl hne

/-! ## Generators -/

namespace Frontend

def keys : Keys where
  names := ["next.config.js", "tsconfig.json"] ++
    ["layout.tsx", "page.tsx", "_app.tsx", "index.tsx", "providers.tsx"] ++
    ["wagmi.ts", "chains.ts", "utils.ts", "wallet-button.tsx", "env.d.ts"] ++
    ["tailwind.config.js", "globals.css"] ++ ["useContracts.ts"] ++ ["README.md"]
  defaults := ["NEXT_PUBLIC_APP_NAME", "NEXT_PUBLIC_SUPERPOSITION_RPC_URL"]
  commands := ["dev", "build", "start", "lint:web"]

theorem names_sitesIn (directory : String) (names : List String) :
    (sitesIn directory names).map (Site.lastName plugin.mappings) = names.map Path.lastName := by
  simp [sitesIn, Site.lastName, site_mapped, ← String.append_assoc, Path.lastName_append]

theorem names_pageFiles (o : Options.FrontendScaffold) (l : Layout) :
    (((pageFiles o l).map File.site).map (Site.lastName plugin.mappings)).Sublist
      ["layout.tsx", "page.tsx", "_app.tsx", "index.tsx", "providers.tsx"] := by
  cases hstructure : o.projectStructure with
  | appRouter =>
    have hsites : (pageFiles o l).map File.site = [⟨"layout.tsx", some .frontendApp⟩,
        ⟨"page.tsx", some .frontendApp⟩, ⟨"providers.tsx", some .frontendApp⟩] := by
      simp [pageFiles, hstructure, File.site]
    rw [hsites]
    decide +kernel
  | pagesRouter =>
    have hsites : (pageFiles o l).map File.site =
        sitesIn (pagesRoot l) ["_app.tsx", "index.tsx"] ++
          [⟨"providers.tsx", some .frontendLib⟩] := by
      simp [pageFiles, hstructure, File.site, sitesIn]
    rw [hsites, List.map_append, names_sitesIn]
    decide +kernel

theorem names_styleFiles (o : Options.FrontendScaffold) (l : Layout) :
    (((styleFiles o l).map File.site).map (Site.lastName plugin.mappings)).Sublist
      ["tailwind.config.js", "globals.css"] := by
  unfold styleFiles
  split
  · have hsites : ([⟨l.frontendPath ++ "/tailwind.config.js", tailwindConfig o, none⟩,
        ⟨"globals.css", globalStyles, some .frontendStyles⟩] : List File).map File.site =
        sitesIn l.frontendPath ["tailwind.config.js"] ++
          [⟨"globals.css", some .frontendStyles⟩] := by
      simp [File.site, sitesIn]
    rw [hsites, List.map_append, names_sitesIn]
    decide +kernel
  · exact List.nil_sublist _

theorem names_hookFiles (o : Options.FrontendScaffold) (contracts : List Output) :
    (((hookFiles o contracts).map File.site).map (Site.lastName plugin.mappings)).Sublist
      ["useContracts.ts"] := by
  unfold hookFiles
  dsimp only
  split
  · have hsites (content : String) :
        ([⟨"useContracts.ts", content, some .frontendHooks⟩] : List File).map File.site =
          [⟨"useContracts.ts", some .frontendHooks⟩] := rfl
    rw [hsites]
    decide +kernel
  · exact List.nil_sublist _

theorem names_files (o : Options.FrontendScaffold) (c : Context) :
    (((files o c).map File.site).map (Site.lastName plugin.mappings)).Sublist
      (["next.config.js", "tsconfig.json"] ++
        ["layout.tsx", "page.tsx", "_app.tsx", "index.tsx", "providers.tsx"] ++
        ["wagmi.ts", "chains.ts", "utils.ts", "wallet-button.tsx", "env.d.ts"] ++
        ["tailwind.config.js", "globals.css"] ++ ["useContracts.ts"]) := by
  have hroot : ([⟨c.layout.frontendPath ++ "/next.config.js", nextConfig, none⟩,
      ⟨c.layout.frontendPath ++ "/tsconfig.json", tsconfig c.layout.frontendSrcPath, none⟩] :
      List File).map File.site =
        sitesIn c.layout.frontendPath ["next.config.js", "tsconfig.json"] := by
    simp [File.site, sitesIn]
  unfold files
  simp only [List.map_append, hroot, names_sitesIn]
  refine ((((?_ : List.Sublist _ _).append (names_pageFiles o c.layout)).append ?_).append
    (names_styleFiles o c.layout)).append (names_hookFiles o (c.wired "contract-in"))
  · decide +kernel
  · simp only [List.map_cons, List.map_nil, File.site]
    decide +kernel

theorem uses (o : Options.FrontendScaffold) (c : Context) :
    Uses (output o c) plugin.mappings keys := by
  constructor
  · rw [Output.keys_contents]
    refine (names_files o c).append ?_
    have hdocs : (output o c).docs.map Doc.path = ["docs/frontend/README.md"] := rfl
    rw [hdocs]
    decide +kernel
  · rw [Output.keys_defaults]
    unfold output envVars
    split
    · exact .refl _
    · exact List.sublist_append_left ["NEXT_PUBLIC_APP_NAME"] _
  · exact .refl _
  · refine forall_mem_included ?_
    simp [Package.all]

end Frontend

namespace WalletAuth

def keys : Keys where
  names := ["wallet-auth.ts"]
  defaults := ["NEXT_PUBLIC_APP_NAME"]
  commands := ["wallet:setup"]

theorem uses (o : Options.WalletAuth) : Uses (output o) plugin.mappings keys := by
  constructor
  · have hsites : (output o).files.map File.site = [⟨"auth/wallet-auth.ts", some .frontendLib⟩] :=
      rfl
    have hdocs : (output o).docs.map Doc.path = [] := rfl
    rw [Output.keys_contents, hsites, hdocs]
    decide +kernel
  · rw [Output.keys_defaults]
    unfold output
    cases o.appName with
    | none => exact List.nil_sublist _
    | some s => exact .refl _
  · exact .refl _
  · unfold output
    split
    · simp [Package.all]
    · simp [Package.all]

end WalletAuth

namespace NftContract

def keys : Keys where
  names := ["Cargo.toml", "lib.rs", "cn.ts", "ERC721NFTPanel.tsx", "deploy-erc721.ts",
    "erc721-nft.ts", "erc721-nft.md"]
  defaults := ["NEXT_PUBLIC_NFT_ADDRESS", "ERC721_DEPLOYMENT_API_URL"]
  commands := ["deploy:erc721", "nft:info"]

theorem uses (o : Options.NftContract) : Uses (output o) plugin.mappings keys := by
  constructor
  · have hsites : (output o).files.map File.site = footprint.sites := rfl
    have hdocs : (output o).docs.map Doc.path = footprint.docs := rfl
    rw [Output.keys_contents, hsites, hdocs]
    decide +kernel
  · rw [Output.keys_defaults]
    unfold output
    cases o.contractAddress with
    | none => exact List.sublist_cons_self _ _
    | some s => exact .refl _
  · exact .refl _
  · simp [output, Package.all]

end NftContract

namespace TelegramNotifications

def keys : Keys where
  names := ["notify-service.ts", "templates.ts", "bot-client.ts", "types.ts"]

theorem uses (o : Options.TelegramNotifications) : Uses (output o) plugin.mappings keys := by
  constructor
  · have hsites : (output o).files.map File.site = footprint.sites := rfl
    have hdocs : (output o).docs.map Doc.path = [] := rfl
    rw [Output.keys_contents, hsites, hdocs]
    decide +kernel
  · exact .refl _
  · exact .refl _
  · simp [output, Package.all]

end TelegramNotifications

namespace TelegramCommands

def keys : Keys where
  names := ["bot-client.ts", "commands.ts", "route.ts", "telegram-bot.ts"]
  commands := ["bot:start"]

section
variable (o : Options.TelegramCommands)

theorem names_delivery : (((delivery o).files.map File.site).map
    (Site.lastName plugin.mappings)).Sublist ["route.ts", "telegram-bot.ts"] := by
  unfold delivery
  cases o.deliveryMethod with
  | webhook =>
    simp only [List.map_cons, List.map_nil, File.site]
    decide +kernel
  | polling =>
    simp only [List.map_cons, List.map_nil, File.site]
    decide +kernel

theorem docs_delivery : (delivery o).docs = [] := by
  unfold delivery
  cases o.deliveryMethod with
  | webhook => rfl
  | polling => rfl

theorem defaults_delivery : ∀ v ∈ (delivery o).envVars, v.default = none := by
  unfold delivery
  cases o.deliveryMethod with
  | webhook => simp
  | polling => simp

theorem commands_delivery : ((delivery o).scripts.map Script.name).Sublist ["bot:start"] := by
  unfold delivery
  cases o.deliveryMethod with
  | webhook => exact List.nil_sublist _
  | polling => exact .refl _

theorem packages_delivery : ∀ d ∈ (delivery o).dependencies, d = Package.tsNode.development := by
  unfold delivery
  cases o.deliveryMethod with
  | webhook => simp
  | polling => simp

theorem package_mem_all (framework : Options.TelegramCommands.Framework) :
    package framework ∈ Package.all := by
  cases framework with
  | grammy => simp [package, Package.all]
  | telegraf => simp [package, Package.all]

theorem uses : Uses (output o) plugin.mappings keys := by
  constructor
  · have hsites : (output o).files.map File.site = [⟨"src/lib/telegram/bot-client.ts", none⟩,
        ⟨"src/lib/telegram/composers/commands.ts", none⟩] ++ (delivery o).files.map File.site := by
      simp [output, shared, bot, Output.append, File.site]
    have hdocs : (output o).docs = [] := by
      simp [output, shared, bot, Output.append, docs_delivery o]
    have hshared : ([⟨"src/lib/telegram/bot-client.ts", none⟩,
        ⟨"src/lib/telegram/composers/commands.ts", none⟩].map
          (Site.lastName plugin.mappings)).Sublist ["bot-client.ts", "commands.ts"] := by
      decide +kernel
    rw [Output.keys_contents, hsites, hdocs, List.map_append, List.map_nil, List.map_nil,
      List.append_nil]
    exact hshared.append (names_delivery o)
  · have hnone : (output o).envVars.filterMap (fun v => v.default.map fun _ => v.key) = [] := by
      simpa [output, shared, bot, Output.append, or_imp, forall_and] using defaults_delivery o
    rw [Output.keys_defaults, hnone]
    exact List.nil_sublist _
  · rw [Output.keys_commands]
    simpa [output, shared, bot, Output.append, keys] using commands_delivery o
  · intro d hd
    simp only [output, shared, bot, Output.append, List.nil_append, List.mem_append,
      List.mem_singleton] at hd
    rcases hd with hd | rfl
    · rw [packages_delivery o d hd]
      exact ⟨.tsNode, by simp [Package.all], .inr rfl⟩
    · exact ⟨_, package_mem_all o.framework, .inl rfl⟩

end

end TelegramCommands

namespace QualityGates

def keys : Keys where
  names := ["ci.yml", ".gitlab-ci.yml", "config.yml"] ++
    ["biome.json", "eslint.config.js", ".prettierrc", ".prettierignore"] ++
    ["vitest.config.ts", "jest.config.js"] ++
    ["tsconfig.json", "pre-commit", ".lintstagedrc", ".editorconfig"] ++ ["quality.md"]
  commands := ["typecheck", "prepare", "lint", "lint:fix", "format", "format:check", "test",
    "test:coverage"]

theorem names_ciFile (o : Options.QualityGates) (project : String) :
    (([ciFile o project].map File.site).map (Site.lastName plugin.mappings)).Sublist
      ["ci.yml", ".gitlab-ci.yml", "config.yml"] := by
  unfold ciFile
  cases o.ciProvider with
  | githubActions =>
    simp only [List.map_cons, List.map_nil, File.site]
    decide +kernel
  | gitlabCi =>
    simp only [List.map_cons, List.map_nil, File.site]
    decide +kernel
  | circleci =>
    simp only [List.map_cons, List.map_nil, File.site]
    decide +kernel

theorem names_testFiles (o : Options.QualityGates) :
    (((testFiles o).map File.site).map (Site.lastName plugin.mappings)).Sublist
      ["vitest.config.ts", "jest.config.js"] := by
  unfold testFiles
  cases o.testFramework with
  | vitest =>
    simp only [List.map_cons, List.map_nil, File.site]
    decide +kernel
  | jest =>
    simp only [List.map_cons, List.map_nil, File.site]
    decide +kernel
  | mocha => exact List.nil_sublist _

theorem uses (o : Options.QualityGates) (project : String) :
    Uses (output o project) plugin.mappings keys := by
  constructor
  · have hdocs : (output o project).docs.map Doc.path = footprint.docs := rfl
    have hincluded {items : List (File × Bool)} {names : List String}
        (h : (((items.map Prod.fst).map File.site).map (Site.lastName plugin.mappings)).Sublist
          names) :
        (((included items).map File.site).map (Site.lastName plugin.mappings)).Sublist names :=
      (((sublist_included items).map _).map _).trans h
    rw [Output.keys_contents, hdocs]
    unfold output files styleFiles
    simp only [List.map_append]
    refine ((((names_ciFile o project).append (hincluded ?_)).append (names_testFiles o)).append
      (hincluded ?_)).append ?_
    · simp only [List.map_cons, List.map_nil, File.site]
      decide +kernel
    · simp only [List.map_cons, List.map_nil, File.site]
      decide +kernel
    · decide +kernel
  · exact .refl _
  · rw [Output.keys_commands]
    exact (sublist_included _).map Script.name
  · refine forall_mem_included ?_
    simp [Package.all]

end QualityGates

/-! ## All generators -/

/-- The built-in plugins with their keys. -/
def keyed : List (Plugin × Keys) := [
  (Frontend.plugin, Frontend.keys),
  (WalletAuth.plugin, WalletAuth.keys),
  (NftContract.plugin, NftContract.keys),
  (TelegramNotifications.plugin, TelegramNotifications.keys),
  (TelegramCommands.plugin, TelegramCommands.keys),
  (QualityGates.plugin, QualityGates.keys)]

/-- Whatever a built-in generator returns uses its keys. -/
theorem exists_uses {p : Plugin} (hp : p ∈ plugins) {n : Node} {c : Context} {o : Output}
    (h : (p.generate n c).result = .ok (.output o)) :
    ∃ k, (p, k) ∈ keyed ∧ Uses o p.mappings k := by
  simp only [plugins, List.mem_cons, List.not_mem_nil, or_false] at hp
  rcases hp with rfl | rfl | rfl | rfl | rfl | rfl
  · obtain ⟨-, rfl⟩ := Frontend.result_eq_ok h
    exact ⟨_, by simp [keyed], Frontend.uses _ c⟩
  · cases h
    exact ⟨_, by simp [keyed], WalletAuth.uses _⟩
  · cases h
    exact ⟨_, by simp [keyed], NftContract.uses _⟩
  · cases h
    exact ⟨_, by simp [keyed], TelegramNotifications.uses _⟩
  · cases h
    exact ⟨_, by simp [keyed], TelegramCommands.uses _⟩
  · cases h
    exact ⟨_, by simp [keyed], QualityGates.uses _ _⟩

/-! ## Keys of several generators -/

/-- The keys that several generators have, with the ids of these. -/
def sharedKeys : Topic → Table (List String)
  | .content => [("tsconfig.json", ["frontend-scaffold", "repo-quality-gates"]),
      ("bot-client.ts", ["telegram-notifications", "telegram-commands"])]
  | .default => [("NEXT_PUBLIC_APP_NAME", ["frontend-scaffold", "wallet-auth"])]
  | .command => []
  | .version => []

/-- The keys that one generator alone has, as lists of characters, which are quick to compare. -/
def Keys.own (k : Keys) (topic : Topic) : List (List Char) :=
  ((k.of topic).map String.toList).filter fun cs => cs ∉ (sharedKeys topic).keys.map String.toList

theorem mem_own {k : Keys} {topic : Topic} {key : String} (hkey : key ∈ k.of topic)
    (hown : key ∉ (sharedKeys topic).keys) : key.toList ∈ k.own topic := by
  have hchars : key.toList ∉ (sharedKeys topic).keys.map String.toList := by
    rwa [List.mem_map_of_injective fun _ _ => String.toList_inj.mp]
  exact List.mem_filter.mpr ⟨List.mem_map_of_mem hkey, by simpa using hchars⟩

theorem nodup_own (topic : Topic) : (keyed.flatMap fun e => e.2.own topic).Nodup := by
  cases topic <;> decide +kernel

theorem id_mem_of_shared (topic : Topic) : ∀ e ∈ keyed, ∀ h ∈ sharedKeys topic,
    h.1.toList ∈ (e.2.of topic).map String.toList → e.1.id ∈ h.2 := by
  cases topic <;> decide +kernel

theorem eq_of_mem_flatMap {α β : Type} {l : List α} {f : α → List β} (h : (l.flatMap f).Nodup)
    {a b : α} (ha : a ∈ l) (hb : b ∈ l) {x : β} (hxa : x ∈ f a) (hxb : x ∈ f b) : a = b := by
  by_contra hne
  have hsymm : Std.Symm (Function.onFun List.Disjoint f) := ⟨fun _ _ h => List.Disjoint.symm h⟩
  exact (List.nodup_flatMap.mp h).2.forall ha hb hne hxa hxb

/-- A key that two generators have is one of the shared. -/
theorem exists_shared {topic : Topic} {e e' : Plugin × Keys} (he : e ∈ keyed) (he' : e' ∈ keyed)
    (hne : e.1.id ≠ e'.1.id) {key : String} (hkey : key ∈ e.2.of topic)
    (hkey' : key ∈ e'.2.of topic) :
    ∃ h ∈ sharedKeys topic, h.1 = key ∧ e.1.id ∈ h.2 ∧ e'.1.id ∈ h.2 := by
  have hshared : key ∈ (sharedKeys topic).keys := by
    by_contra hown
    have hsame : e = e' :=
      eq_of_mem_flatMap (nodup_own topic) he he' (mem_own hkey hown) (mem_own hkey' hown)
    exact hne (hsame ▸ rfl)
  obtain ⟨h, hh, rfl⟩ := List.mem_map.mp hshared
  exact ⟨h, hh, rfl, id_mem_of_shared topic e he h hh (List.mem_map_of_mem hkey),
    id_mem_of_shared topic e' he' h hh (List.mem_map_of_mem hkey')⟩

/-! ## Packages -/

theorem Package.ext_of_name {p q : Package} (hp : p ∈ all) (hq : q ∈ all) (h : p.name = q.name) :
    p = q := by
  have hchars : (all.map fun p => p.name.toList).Nodup := by decide +kernel
  exact List.inj_on_of_nodup_map hchars hp hq (congrArg String.toList h)

/-- Outputs of generators agree on the version of every package. -/
theorem Uses.version_eq {o o' : Output} {m m' : Mappings} {k k' : Keys} (h : Uses o m k)
    (h' : Uses o' m' k') {d d' : Dependency} (hd : d ∈ o.dependencies) (hd' : d' ∈ o'.dependencies)
    (hname : d.name = d'.name) : d.version = d'.version := by
  have hshared {o : Output} {m : Mappings} {k : Keys} (h : Uses o m k) {d : Dependency}
      (hd : d ∈ o.dependencies) : ∃ p ∈ Package.all, d.name = p.name ∧ d.version = p.version := by
    obtain ⟨p, hp, rfl | rfl⟩ := h.packages d hd
    · exact ⟨p, hp, rfl, rfl⟩
    · exact ⟨p, hp, rfl, rfl⟩
  obtain ⟨p, hp, hpname, hpversion⟩ := hshared h hd
  obtain ⟨q, hq, hqname, hqversion⟩ := hshared h' hd'
  rw [hpversion, hqversion, Package.ext_of_name hp hq (hpname.symm.trans (hname.trans hqname))]

end BuiltIn
end ProjectComposer
