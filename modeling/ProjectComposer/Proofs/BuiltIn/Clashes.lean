import ProjectComposer.Proofs.BuiltIn.Keys
import ProjectComposer.Proofs.BuiltIn.RootFree

/-!
Clashes of built-in generators. A node never proposes two values for one key, and nodes of different
kinds propose different ones only for keys that their generators share. Of the two shared names of
files one is in different directories each time, so one path alone is left for two kinds of bots.
-/
namespace ProjectComposer
set_option autoImplicit false

/-! ## Shared paths -/

namespace BuiltIn

/-- The names of files that several generators use. -/
def sharedNames : List String :=
  (sharedKeys .content).keys

/-- Where the files of these names go, with the ids of the generators. -/
def sharedPaths (l : Layout) : List (String × String) := [
  ("frontend-scaffold", l.frontendPath ++ "/tsconfig.json"),
  ("repo-quality-gates", "tsconfig.json"),
  ("telegram-notifications", "src/lib/telegram/bot-client.ts"),
  ("telegram-commands", "src/lib/telegram/bot-client.ts")]

section SharedPaths
variable {l : Layout} {path : String}

theorem mem_sharedPaths_frontend : ("frontend-scaffold", path) ∈ sharedPaths l ↔
    path = l.frontendPath ++ "/tsconfig.json" := by
  simp [sharedPaths]

theorem mem_sharedPaths_quality : ("repo-quality-gates", path) ∈ sharedPaths l ↔
    path = "tsconfig.json" := by
  simp [sharedPaths]

theorem eq_of_mem_sharedPaths_bot {kind : String}
    (hkind : kind ∈ ["telegram-notifications", "telegram-commands"])
    (h : (kind, path) ∈ sharedPaths l) : path = "src/lib/telegram/bot-client.ts" := by
  simp only [List.mem_cons, List.not_mem_nil, or_false] at hkind
  rcases hkind with rfl | rfl
  · simpa [sharedPaths] using h
  · simpa [sharedPaths] using h

end SharedPaths

/-- What a generator asks for under a shared name has the path that is listed. -/
structure PlacesShared (p : Plugin) (s : Footprint) (l : Layout) : Prop where
  site : ∀ site ∈ s.sites, site.lastName p.mappings ∈ sharedNames →
    (p.id, placeOf l (site.mapped p.mappings)) ∈ sharedPaths l
  doc : ∀ path ∈ s.docs, Path.lastName path ∉ sharedNames

section PlacesShared
variable {p : Plugin} {s : Footprint} {l : Layout}

theorem PlacesShared.of_none (hsites : ∀ site ∈ s.sites, site.lastName p.mappings ∉ sharedNames)
    (hdocs : ∀ path ∈ s.docs, Path.lastName path ∉ sharedNames) : PlacesShared p s l :=
  ⟨fun site hsite hshared => absurd hshared (hsites site hsite), hdocs⟩

theorem PlacesShared.of_one (place : Site) (hplace : (p.id, placeOf l place) ∈ sharedPaths l)
    (hsites : ∀ site ∈ s.sites, site.lastName p.mappings ∈ sharedNames →
      site.mapped p.mappings = place)
    (hdocs : ∀ path ∈ s.docs, Path.lastName path ∉ sharedNames) : PlacesShared p s l := by
  refine ⟨fun site hsite hshared => ?_, hdocs⟩
  rw [hsites site hsite hshared]
  exact hplace

end PlacesShared

theorem Frontend.mem_sitesIn_of_shared {directory : String} {names : List String} {site : Site}
    (hsite : site ∈ sitesIn directory names) (hshared : Path.lastName site.path ∈ sharedNames) :
    ∃ name ∈ names.filter (fun name => Path.lastName name ∈ sharedNames),
      site = ⟨directory ++ ("/" ++ name), none⟩ := by
  obtain ⟨name, hname, rfl⟩ := List.mem_map.mp hsite
  rw [← String.append_assoc, Path.lastName_append] at hshared
  exact ⟨name, List.mem_filter.mpr ⟨hname, decide_eq_true hshared⟩, rfl⟩

theorem Frontend.placesShared (l : Layout) : PlacesShared plugin (footprint l) l := by
  have hroot : ["next.config.js", "tsconfig.json", "tailwind.config.js"].filter
      (fun name => Path.lastName name ∈ sharedNames) = ["tsconfig.json"] := by
    decide +kernel
  have hpages : ["_app.tsx", "index.tsx"].filter (fun name => Path.lastName name ∈ sharedNames) =
      [] := by
    decide +kernel
  have hparts : ∀ site ∈ partSites, Path.lastName site.path ∉ sharedNames := by
    decide +kernel
  constructor
  · intro site hsite hshared
    rw [Site.lastName, site_mapped] at hshared
    rw [site_mapped]
    rcases List.mem_append.mp hsite with hsite | hsite
    · rcases List.mem_append.mp hsite with hsite | hsite
      · obtain ⟨name, hname, rfl⟩ := mem_sitesIn_of_shared hsite hshared
        rw [hroot, List.mem_singleton] at hname
        simp [hname, placeOf, sharedPaths, plugin, Plugin.id]
      · obtain ⟨name, hname, -⟩ := mem_sitesIn_of_shared hsite hshared
        rw [hpages] at hname
        cases hname
    · exact absurd hshared (hparts site hsite)
  · change ∀ path ∈ ["docs/frontend/README.md"], Path.lastName path ∉ sharedNames
    decide +kernel

section Layout
variable (l : Layout)

theorem WalletAuth.placesShared : PlacesShared plugin footprint l :=
  .of_none (by decide +kernel) (by decide +kernel)

theorem NftContract.placesShared : PlacesShared plugin footprint l :=
  .of_none (by decide +kernel) (by decide +kernel)

theorem TelegramNotifications.placesShared : PlacesShared plugin footprint l := by
  refine .of_one ⟨"src/lib/telegram/bot-client.ts", none⟩ ?_ (by decide +kernel) (by decide +kernel)
  simp [placeOf, sharedPaths, plugin, Plugin.id]

theorem TelegramCommands.placesShared : PlacesShared plugin footprint l := by
  refine .of_one ⟨"src/lib/telegram/bot-client.ts", none⟩ ?_ (by decide +kernel) (by decide +kernel)
  simp [placeOf, sharedPaths, plugin, Plugin.id]

theorem QualityGates.placesShared : PlacesShared plugin footprint l := by
  have hroot : l.directory .root = "" := rfl
  refine .of_one ⟨"tsconfig.json", some .root⟩ ?_ (by decide +kernel) (by decide +kernel)
  simp [placeOf, hroot, sharedPaths, plugin, Plugin.id]

theorem placesShared_of_mem {e : Plugin × (Layout → Footprint)} (he : e ∈ footprints) :
    PlacesShared e.1 (e.2 l) l := by
  simp only [footprints, List.mem_cons, List.not_mem_nil, or_false] at he
  rcases he with rfl | rfl | rfl | rfl | rfl | rfl
  · exact Frontend.placesShared l
  · exact WalletAuth.placesShared l
  · exact NftContract.placesShared l
  · exact TelegramNotifications.placesShared l
  · exact TelegramCommands.placesShared l
  · exact QualityGates.placesShared l

end Layout
end BuiltIn

/-! ## Proposals of a node -/

namespace Job.Finished
variable {j : Job} {css : List (List Call)} {rs : List NodeResult} {x y : NodeResult}

theorem exists_uses (h : j.Finished css rs) (hx : x ∈ rs) :
    ∃ e ∈ BuiltIn.keyed, j.registry.get? x.nodeKind = some e.1 ∧ e.1.id = x.nodeKind ∧
      BuiltIn.Uses x.output e.1.mappings e.2 := by
  obtain ⟨c, hc, -, hkind, hresult⟩ := h.mem_results_iff.mp hx
  obtain ⟨-, hget, -⟩ := h.of_call hc
  obtain ⟨hplugin, hid⟩ := h.plugin_mem hc
  obtain ⟨k, hk, huses⟩ := BuiltIn.exists_uses hplugin hresult
  exact ⟨_, hk, by rw [h.registry_eq, hkind, hget], hid.trans hkind.symm, huses⟩

/-- Documents stay where they are. -/
theorem normalize_eq (h : j.Finished css rs) (hx : x ∈ rs) {d : Doc} (hd : d ∈ x.output.docs) :
    Path.normalize d.path = .ok d.path := by
  obtain ⟨e, he, -, -, hwithin⟩ := h.exists_within hx
  exact ((BuiltIn.apart_of_mem he j.layout).doc d.path (hwithin.path_mem d hd)).1.normalize_eq

/-- Routing keeps the last name of every file. -/
theorem lastName_eq (h : j.Finished css rs) (hx : x ∈ rs) {p : Plugin}
    (hp : j.registry.get? x.nodeKind = some p) {f : File} (hf : f ∈ x.output.files) {path : String}
    (hpath : (f.mapped p.mappings).outputPath j.layout = .ok path) :
    Path.lastName path = f.site.lastName p.mappings := by
  obtain ⟨e, he, hget, -, hwithin⟩ := h.exists_within hx
  obtain rfl : e.1 = p := Option.some.inj (hget.symm.trans hp)
  have hends := (BuiltIn.apart_of_mem he j.layout).site f.site (hwithin.site_mem f hf)
  rw [← File.site_mapped] at hends
  obtain ⟨s, hs, hplain, -⟩ := hends
  rw [Path.lastName_eq (File.getLast?_outputPath hpath hplain hs), Site.lastName,
    ← File.site_mapped]
  exact (Path.lastName_eq hs).symm

/-- What a node emits it has under the last name of the path. -/
theorem mem_contents (h : j.Finished css rs) (hx : x ∈ rs) {p : Plugin}
    (hp : j.registry.get? x.nodeKind = some p) {path content : String}
    (hemits : x.Emits j path content) :
    (Path.lastName path, content) ∈ x.output.offers p.mappings .content := by
  refine List.mem_append.mpr ?_
  cases hemits with
  | @file q f path hq hf hpath =>
    obtain rfl : p = q := Option.some.inj (hp.symm.trans hq)
    rw [h.lastName_eq hx hp hf hpath, Site.lastName, ← File.site_mapped]
    exact .inl (List.mem_map.mpr ⟨f, hf, rfl⟩)
  | @doc d path hdocs hd hpath =>
    rw [h.normalize_eq hx hd] at hpath
    obtain rfl := Except.ok.inj hpath
    exact .inr (List.mem_map.mpr ⟨d, hd, rfl⟩)

section Proposals
variable {c d : Contribution} {topic : Topic} {key v w : String}

theorem mem_offers (h : j.Finished css rs) (hx : x ∈ rs) {p : Plugin}
    (hp : j.registry.get? x.nodeKind = some p) (hc : j.contribution x = .ok c)
    (hv : c.Proposes j.blueprint.resolvedSettings.generateDocs topic key v) :
    (topic.short key, v) ∈ x.output.offers p.mappings topic := by
  obtain ⟨q, -, hrouted, -⟩ := contribution_eq_ok.mp hc
  obtain ⟨henvVars, hscripts, hdependencies⟩ := Output.entries_routed hrouted
  cases topic with
  | content =>
    exact h.mem_contents hx hp ((NodeResult.puts_iff_emits hc).mp (proposes_content.mp hv))
  | default =>
    obtain ⟨a, ha, rfl, hshown⟩ := proposes_default.mp hv
    have hdefault := (Merge.shownDefault_eq_some.mp hshown).1
    exact List.mem_filterMap.mpr ⟨a, henvVars ▸ ha, by rw [hdefault]; rfl⟩
  | command =>
    obtain ⟨s, hs, rfl, rfl⟩ := proposes_command.mp hv
    exact List.mem_map.mpr ⟨s, hscripts ▸ hs, rfl⟩
  | version =>
    obtain ⟨d, hd, rfl, rfl⟩ := proposes_version.mp hv
    exact List.mem_map.mpr ⟨d, hdependencies ▸ hd, rfl⟩

/-- All nodes propose the same version of a package. -/
theorem version_eq (h : j.Finished css rs) (hx : x ∈ rs) (hy : y ∈ rs)
    (hc : j.contribution x = .ok c) (hd : j.contribution y = .ok d)
    (hv : c.Proposes j.blueprint.resolvedSettings.generateDocs .version key v)
    (hw : d.Proposes j.blueprint.resolvedSettings.generateDocs .version key w) : v = w := by
  obtain ⟨e, -, hget, -, huses⟩ := h.exists_uses hx
  obtain ⟨e', -, hget', -, huses'⟩ := h.exists_uses hy
  obtain ⟨a, ha, hsame⟩ := List.mem_map.mp (h.mem_offers hx hget hc hv)
  obtain ⟨a', ha', hsame'⟩ := List.mem_map.mp (h.mem_offers hy hget' hd hw)
  obtain ⟨hname, rfl⟩ := Prod.mk.inj hsame
  obtain ⟨hname', rfl⟩ := Prod.mk.inj hsame'
  exact congrArg Text.strip (huses.version_eq huses' ha ha' (hname.trans hname'.symm))

/-- A node agrees with itself. -/
theorem value_eq (h : j.Finished css rs) (hx : x ∈ rs) (hc : j.contribution x = .ok c)
    (hv : c.Proposes j.blueprint.resolvedSettings.generateDocs topic key v)
    (hw : c.Proposes j.blueprint.resolvedSettings.generateDocs topic key w) : v = w := by
  by_cases htopic : topic = .version
  · subst htopic
    exact h.version_eq hx hx hc hc hv hw
  · obtain ⟨e, -, hget, -, huses⟩ := h.exists_uses hx
    have hkeys : (x.output.offers e.1.mappings topic).keys.Nodup :=
      (e.2.nodup_of topic).sublist (huses.sublist htopic)
    have hfound := (Table.get?_eq_some_iff hkeys).mpr (h.mem_offers hx hget hc hv)
    rw [(Table.get?_eq_some_iff hkeys).mpr (h.mem_offers hx hget hc hw)] at hfound
    exact (Option.some.inj hfound).symm

theorem pluginId_eq (h : j.Finished css rs) (hx : x ∈ rs) (hc : j.contribution x = .ok c) :
    c.pluginId = x.nodeKind := by
  obtain ⟨e, -, hget, hid, -⟩ := h.exists_within hx
  obtain ⟨p, hp, -, hsame⟩ := contribution_eq_ok.mp hc
  obtain rfl : e.1 = p := Option.some.inj (hget.symm.trans hp)
  rw [hsame, ← hid]

theorem mem_keys (h : j.Finished css rs) (hx : x ∈ rs) (hc : j.contribution x = .ok c)
    (hv : c.Proposes j.blueprint.resolvedSettings.generateDocs topic key v)
    (htopic : topic ≠ .version) :
    ∃ e ∈ BuiltIn.keyed, e.1.id = x.nodeKind ∧ topic.short key ∈ e.2.of topic := by
  obtain ⟨e, he, hget, hid, huses⟩ := h.exists_uses hx
  have hoffers := h.mem_offers hx hget hc hv
  exact ⟨e, he, hid, (huses.sublist htopic).subset (Table.mem_keys.mpr ⟨v, hoffers⟩)⟩

/-- Only nodes of the kinds that share a key propose anything for it. -/
theorem nodeKind_mem (h : j.Finished css rs) (hx : x ∈ rs) (hc : j.contribution x = .ok c)
    (hv : c.Proposes j.blueprint.resolvedSettings.generateDocs topic key v)
    {s : String × List String} (hs : s ∈ BuiltIn.sharedKeys topic) (hkey : s.1 = topic.short key) :
    x.nodeKind ∈ s.2 := by
  have htopic : topic ≠ .version := by
    rintro rfl
    cases hs
  obtain ⟨e, he, hid, hmem⟩ := h.mem_keys hx hc hv htopic
  rw [← hid]
  exact BuiltIn.id_mem_of_shared topic e he s hs (List.mem_map_of_mem (hkey ▸ hmem))

/-- Nodes of different kinds that disagree do so over a shared key. -/
theorem exists_shared (h : j.Finished css rs) (hx : x ∈ rs) (hy : y ∈ rs)
    (hkind : x.nodeKind ≠ y.nodeKind) (hc : j.contribution x = .ok c) (hd : j.contribution y = .ok d)
    (hv : c.Proposes j.blueprint.resolvedSettings.generateDocs topic key v)
    (hw : d.Proposes j.blueprint.resolvedSettings.generateDocs topic key w) (hne : v ≠ w) :
    ∃ s ∈ BuiltIn.sharedKeys topic, s.1 = topic.short key ∧ x.nodeKind ∈ s.2 ∧
      y.nodeKind ∈ s.2 := by
  have htopic : topic ≠ .version := by
    rintro rfl
    exact hne (h.version_eq hx hy hc hd hv hw)
  obtain ⟨e, he, hid, hkey⟩ := h.mem_keys hx hc hv htopic
  obtain ⟨e', he', hid', hkey'⟩ := h.mem_keys hy hd hw htopic
  rw [← hid, ← hid'] at hkind ⊢
  exact BuiltIn.exists_shared he he' hkind hkey hkey'

end Proposals

/-! ## Places -/

section Places
variable {p : Plugin}

/-- Where the files of a node go. -/
theorem outputPath_eq (h : j.Finished css rs) (hlayout : BuiltIn.InDirectories j.layout)
    (hx : x ∈ rs) (hp : j.registry.get? x.nodeKind = some p) {f : File} (hf : f ∈ x.output.files) :
    (f.mapped p.mappings).outputPath j.layout =
      .ok (BuiltIn.placeOf j.layout (f.site.mapped p.mappings)) := by
  obtain ⟨e, he, hget, -, hwithin⟩ := h.exists_within hx
  obtain rfl : e.1 = p := Option.some.inj (hget.symm.trans hp)
  have hfile := (BuiltIn.inFiles_of_mem he hlayout).site f.site (hwithin.site_mem f hf)
  rw [← File.site_mapped] at hfile ⊢
  exact BuiltIn.outputPath_eq hlayout hfile

/-- Every output of a run can be routed. -/
theorem exists_contribution (h : j.Finished css rs) (hlayout : BuiltIn.InDirectories j.layout)
    (hx : x ∈ rs) : ∃ c, j.contribution x = .ok c := by
  obtain ⟨e, -, hget, -⟩ := h.exists_within hx
  have hrouted : ∃ q, x.output.routed e.1.mappings j.layout = .ok q := by
    refine Output.exists_routed_iff.mpr fun refusal hstrays => ?_
    cases hstrays with
    | file hf he =>
      rw [h.outputPath_eq hlayout hx hget hf] at he
      cases he
    | doc hd he =>
      rw [h.normalize_eq hx hd] at he
      cases he
  obtain ⟨q, hq⟩ := hrouted
  exact ⟨⟨x.nodeId, e.1.id, q⟩, contribution_eq_ok.mpr ⟨e.1, hget, hq, rfl⟩⟩

/-- A path with a shared name is where the generator of the node puts such files. -/
theorem mem_sharedPaths (h : j.Finished css rs) (hlayout : BuiltIn.InDirectories j.layout)
    (hx : x ∈ rs) {path content : String} (hemits : x.Emits j path content)
    (hshared : Path.lastName path ∈ BuiltIn.sharedNames) :
    (x.nodeKind, path) ∈ BuiltIn.sharedPaths j.layout := by
  obtain ⟨e, he, hget, hid, hwithin⟩ := h.exists_within hx
  have hplaces := BuiltIn.placesShared_of_mem j.layout he
  cases hemits with
  | @file q f path hq hf hpath =>
    obtain rfl : e.1 = q := Option.some.inj (hget.symm.trans hq)
    have hname := h.lastName_eq hx hq hf hpath
    rw [h.outputPath_eq hlayout hx hq hf] at hpath
    obtain rfl := Except.ok.inj hpath
    rw [← hid]
    exact hplaces.site f.site (hwithin.site_mem f hf) (hname ▸ hshared)
  | @doc d path hdocs hd hpath =>
    rw [h.normalize_eq hx hd] at hpath
    obtain rfl := Except.ok.inj hpath
    exact absurd hshared (hplaces.doc d.path (hwithin.path_mem d hd))

end Places

/-! ## Clashes -/

theorem eq_or_eq_of_ne {a b s t : String} (hne : s ≠ t) (hs : s ∈ [a, b]) (ht : t ∈ [a, b]) :
    s = a ∧ t = b ∨ s = b ∧ t = a := by
  simp only [List.mem_cons, List.not_mem_nil, or_false] at hs ht
  grind

/-- The path that two kinds of bots share; a frontend and quality gates keep apart. -/
theorem eq_botClient (h : j.Finished css rs) (hlayout : BuiltIn.InDirectories j.layout)
    (hx : x ∈ rs) (hy : y ∈ rs) (hkind : x.nodeKind ≠ y.nodeKind) {path v w : String}
    (hv : x.Emits j path v) (hw : y.Emits j path w) {s : String × List String}
    (hs : s ∈ BuiltIn.sharedKeys .content) (hname : s.1 = Path.lastName path)
    (hxs : x.nodeKind ∈ s.2) (hys : y.nodeKind ∈ s.2) :
    path = "src/lib/telegram/bot-client.ts" ∧
      s.2 = ["telegram-notifications", "telegram-commands"] := by
  have hshared : Path.lastName path ∈ BuiltIn.sharedNames :=
    hname ▸ List.mem_map_of_mem hs
  have hpathx := h.mem_sharedPaths hlayout hx hv hshared
  have hpathy := h.mem_sharedPaths hlayout hy hw hshared
  simp only [BuiltIn.sharedKeys, List.mem_cons, List.not_mem_nil, or_false] at hs
  rcases hs with rfl | rfl
  -- The compiler options of the app are below its root, those of the gates at the top.
  · have hapart : j.layout.frontendPath ++ "/tsconfig.json" ≠ "tsconfig.json" := by
      intro hsame
      have hlength := congrArg String.length hsame
      have hlonger : "tsconfig.json".length < "/tsconfig.json".length := by decide
      rw [String.length_append] at hlength
      omega
    rcases eq_or_eq_of_ne hkind hxs hys with ⟨hfrontend, hquality⟩ | ⟨hquality, hfrontend⟩
    · rw [hfrontend, BuiltIn.mem_sharedPaths_frontend] at hpathx
      rw [hquality, BuiltIn.mem_sharedPaths_quality] at hpathy
      exact absurd (hpathx.symm.trans hpathy) hapart
    · rw [hquality, BuiltIn.mem_sharedPaths_quality] at hpathx
      rw [hfrontend, BuiltIn.mem_sharedPaths_frontend] at hpathy
      exact absurd (hpathy.symm.trans hpathx) hapart
  · exact ⟨BuiltIn.eq_of_mem_sharedPaths_bot hxs hpathx, rfl⟩

/-- Nodes of different kinds disagree over the client of a bot or the name of the app alone. -/
theorem clash_cases (h : j.Finished css rs) (hlayout : BuiltIn.InDirectories j.layout)
    (hx : x ∈ rs) (hy : y ∈ rs) (hkind : x.nodeKind ≠ y.nodeKind) {c d : Contribution}
    (hc : j.contribution x = .ok c) (hd : j.contribution y = .ok d) {topic : Topic}
    {key v w : String} (hv : c.Proposes j.blueprint.resolvedSettings.generateDocs topic key v)
    (hw : d.Proposes j.blueprint.resolvedSettings.generateDocs topic key w) (hne : v ≠ w) :
    (topic = .content ∧ key = "src/lib/telegram/bot-client.ts" ∧
      x.nodeKind ∈ ["telegram-notifications", "telegram-commands"] ∧
      y.nodeKind ∈ ["telegram-notifications", "telegram-commands"]) ∨
    (topic = .default ∧ key = "NEXT_PUBLIC_APP_NAME" ∧
      x.nodeKind ∈ ["frontend-scaffold", "wallet-auth"] ∧
      y.nodeKind ∈ ["frontend-scaffold", "wallet-auth"]) := by
  obtain ⟨s, hs, hkey, hxs, hys⟩ := h.exists_shared hx hy hkind hc hd hv hw hne
  cases topic with
  | content =>
    have hemitsx := (NodeResult.puts_iff_emits hc).mp (proposes_content.mp hv)
    have hemitsy := (NodeResult.puts_iff_emits hd).mp (proposes_content.mp hw)
    obtain ⟨hpath, hkinds⟩ := h.eq_botClient hlayout hx hy hkind hemitsx hemitsy hs hkey hxs hys
    exact .inl ⟨rfl, hpath, hkinds ▸ hxs, hkinds ▸ hys⟩
  | default =>
    obtain rfl := List.mem_singleton.mp hs
    exact .inr ⟨rfl, hkey.symm, hxs, hys⟩
  | command => cases hs
  | version => cases hs

end Job.Finished
end ProjectComposer
