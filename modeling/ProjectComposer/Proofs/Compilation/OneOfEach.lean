import ProjectComposer.Proofs.BuiltIn.Clashes
import ProjectComposer.Proofs.Compilation.Embedded
import ProjectComposer.Proofs.Validation.DependencyGraph

/-!
Blueprints with one node of each kind. Whatever the configs and the edges say, the outputs of an
accepted blueprint of built-in kinds, none of them twice, clash in two cases: with both kinds of
bots, which write different clients to one path, and otherwise where a frontend and wallet
authentication name the app differently. All else compiles, unless the scaffold or the overview
would have to show a chain id that cannot be written.
-/
namespace ProjectComposer
set_option autoImplicit false

/-! ## Nodes -/

/-- The name of the app by the config of a node. -/
def Node.appName (n : Node) : Option String :=
  match n.readConfig .builtIn with
  | some (.ok (.frontendScaffold o)) => some o.appName
  | some (.ok (.walletAuth o)) => o.appName
  | _ => none

/-- What the generator of a node returns on its config in some context. -/
def Node.Returns (n : Node) (o : Output) : Prop :=
  ∃ p c, Registry.builtIn.get? n.kind = some p ∧ n.readConfig .builtIn = some (.ok c.config) ∧
    (p.generate n c).result = .ok (.output o)

namespace Blueprint

def HasBothBots (b : Blueprint) : Prop :=
  b.HasKind "telegram-notifications" ∧ b.HasKind "telegram-commands"

/-- A frontend and wallet authentication have names for the app, neither blank, that differ. -/
def AppNamesDiffer (b : Blueprint) : Prop :=
  ∃ m ∈ b.nodes, ∃ n ∈ b.nodes, m.kind = "frontend-scaffold" ∧ n.kind = "wallet-auth" ∧
    ∃ v ∈ m.appName, ∃ w ∈ n.appName,
      Text.isBlankText v = false ∧ Text.isBlankText w = false ∧ v ≠ w

instance (b : Blueprint) (kind : String) : Decidable (b.HasKind kind) :=
  inferInstanceAs (Decidable (∃ m ∈ b.nodes, m.kind = kind))

instance (b : Blueprint) : Decidable b.HasBothBots :=
  inferInstanceAs (Decidable (_ ∧ _))

instance (b : Blueprint) : Decidable b.AppNamesDiffer :=
  inferInstanceAs (Decidable (∃ m ∈ b.nodes, ∃ n ∈ b.nodes, m.kind = "frontend-scaffold" ∧
    n.kind = "wallet-auth" ∧ ∃ v ∈ m.appName, ∃ w ∈ n.appName,
      Text.isBlankText v = false ∧ Text.isBlankText w = false ∧ v ≠ w))

end Blueprint

namespace Node.Returns
variable {n : Node} {o : Output}

theorem of_kind (h : n.Returns o) {p : Plugin} (hp : Registry.builtIn.get? n.kind = some p) :
    ∃ c : Context, n.readConfig .builtIn = some (.ok c.config) ∧
      (p.generate n c).result = .ok (.output o) := by
  obtain ⟨q, c, hq, hconfig, hresult⟩ := h
  obtain rfl : p = q := Option.some.inj (hp.symm.trans hq)
  exact ⟨c, hconfig, hresult⟩

theorem notifications (h : n.Returns o) (hkind : n.kind = "telegram-notifications") :
    ⟨"src/lib/telegram/bot-client.ts", BuiltIn.TelegramNotifications.botClient, none⟩ ∈ o.files := by
  have hp : Registry.builtIn.get? n.kind = some BuiltIn.TelegramNotifications.plugin := by
    rw [hkind]
    rfl
  obtain ⟨c, -, hresult⟩ := h.of_kind hp
  cases hresult
  simp [BuiltIn.TelegramNotifications.output]

theorem commands (h : n.Returns o) (hkind : n.kind = "telegram-commands") :
    ∃ options, ⟨"src/lib/telegram/bot-client.ts", BuiltIn.TelegramCommands.botClient options, none⟩ ∈
      o.files := by
  have hp : Registry.builtIn.get? n.kind = some BuiltIn.TelegramCommands.plugin := by
    rw [hkind]
    rfl
  obtain ⟨c, -, hresult⟩ := h.of_kind hp
  cases hresult
  exact ⟨BuiltIn.TelegramCommands.options c.config, by
    simp [BuiltIn.TelegramCommands.output, BuiltIn.TelegramCommands.shared, Output.append]⟩

theorem appName_iff (h : n.Returns o) (hkind : n.kind ∈ ["frontend-scaffold", "wallet-auth"])
    {s : String} : (∃ v ∈ o.envVars, v.key = "NEXT_PUBLIC_APP_NAME" ∧ v.default = some s) ↔
      n.appName = some s := by
  simp only [List.mem_cons, List.not_mem_nil, or_false] at hkind
  rcases hkind with hkind | hkind
  · have hp : Registry.builtIn.get? n.kind = some BuiltIn.Frontend.plugin := by
      rw [hkind]
      rfl
    obtain ⟨c, hconfig, hresult⟩ := h.of_kind hp
    rw [Node.appName, hconfig]
    rw [Node.readConfig, hp, Option.map_some, Option.some.injEq] at hconfig
    obtain ⟨a, -, hc⟩ := map_eq_ok.mp hconfig
    obtain ⟨-, rfl⟩ := BuiltIn.Frontend.result_eq_ok hresult
    rw [← hc]
    simp only [BuiltIn.Frontend.output, BuiltIn.Frontend.envVars, BuiltIn.Frontend.options]
    split
    · simp
    · simp
  · have hp : Registry.builtIn.get? n.kind = some BuiltIn.WalletAuth.plugin := by
      rw [hkind]
      rfl
    obtain ⟨c, hconfig, hresult⟩ := h.of_kind hp
    rw [Node.appName, hconfig]
    rw [Node.readConfig, hp, Option.map_some, Option.some.injEq] at hconfig
    obtain ⟨a, -, hc⟩ := map_eq_ok.mp hconfig
    cases hresult
    rw [← hc]
    simp [BuiltIn.WalletAuth.output, BuiltIn.WalletAuth.options]

end Node.Returns

/-! ## Runs -/

namespace Job.Finished
variable {j : Job} {css : List (List Call)} {rs : List NodeResult}

theorem returns_of_call (h : j.Finished css rs) {c : Call} (hc : c ∈ css.flatten) {o : Output}
    (ho : (c.plugin.generate c.node c.context).result = .ok (.output o)) : c.node.Returns o := by
  obtain ⟨hnode, hget, hconfig, -⟩ := h.of_call hc
  obtain ⟨hconfigs, -⟩ := Blueprint.validated_eq_ok.mp h.valid
  obtain ⟨-, hread⟩ := Blueprint.validateConfigs_eq_ok.mp hconfigs
  rw [← hread, h.registry_eq, Blueprint.get?_configs h.valid.nodup_nodeIds] at hconfig
  obtain ⟨n, hn, hid, hsame⟩ := hconfig
  obtain rfl := h.node_ext hn hnode hid
  exact ⟨c.plugin, c.context, hget, hsame, ho⟩

theorem exists_node (h : j.Finished css rs) {x : NodeResult} (hx : x ∈ rs) :
    ∃ n ∈ j.blueprint.nodes, n.id = x.nodeId ∧ n.kind = x.nodeKind ∧ n.Returns x.output := by
  obtain ⟨c, hc, hid, hkind, hresult⟩ := h.mem_results_iff.mp hx
  exact ⟨c.node, (h.of_call hc).1, hid.symm, hkind.symm, h.returns_of_call hc hresult⟩

theorem exists_result (h : j.Finished css rs) {n : Node} (hn : n ∈ j.blueprint.nodes) :
    ∃ x ∈ rs, n.kind = x.nodeKind ∧ n.Returns x.output := by
  obtain ⟨i, hi, c, hc, rfl⟩ := h.exists_call hn
  have hmem : c ∈ css.flatten := List.mem_flatten.mpr ⟨_, List.getElem_mem hi, hc⟩
  obtain ⟨x, hx, hgives⟩ := exists_mem_of_forall₂ h.gives.flip hmem
  have hresult := (Call.returns_iff (h.plugin_mem hmem).1).mp hgives.returns
  exact ⟨x, hx, hgives.nodeKind_eq.symm, h.returns_of_call hmem hresult⟩

/-- Where kinds are distinct, a kind has one result. -/
theorem result_ext (h : j.Finished css rs) (hkinds : (j.blueprint.nodes.map (·.kind)).Nodup)
    {x y : NodeResult} (hx : x ∈ rs) (hy : y ∈ rs) (hkind : x.nodeKind = y.nodeKind) : x = y := by
  obtain ⟨m, hm, hmid, hmkind, -⟩ := h.exists_node hx
  obtain ⟨n, hn, hnid, hnkind, -⟩ := h.exists_node hy
  have hsame : m = n := List.inj_on_of_nodup_map hkinds hm hn (by rw [hmkind, hnkind, hkind])
  exact List.inj_on_of_nodup_map h.nodup_nodeIds_results hx hy (by rw [← hmid, ← hnid, hsame])

section Proposals
variable {x : NodeResult} {c : Contribution} {docs : Bool}

theorem proposes_appName_iff (hc : j.contribution x = .ok c) {n : Node} (hn : n.Returns x.output)
    (hkind : n.kind ∈ ["frontend-scaffold", "wallet-auth"]) {s : String} :
    c.Proposes docs .default "NEXT_PUBLIC_APP_NAME" s ↔
      n.appName = some s ∧ Text.isBlankText s = false := by
  obtain ⟨p, -, hrouted, -⟩ := contribution_eq_ok.mp hc
  rw [proposes_default, (Output.entries_routed hrouted).1, ← hn.appName_iff hkind]
  simp only [Merge.shownDefault_eq_some]
  constructor
  · rintro ⟨v, hv, hkey, hdefault, hshown⟩
    exact ⟨⟨v, hv, hkey, hdefault⟩, hshown⟩
  · rintro ⟨⟨v, hv, hkey, hdefault⟩, hshown⟩
    exact ⟨v, hv, hkey, hdefault, hshown⟩

theorem proposes_botClient (h : j.Finished css rs) (hc : j.contribution x = .ok c)
    (hkind : x.nodeKind ∈ ["telegram-notifications", "telegram-commands"]) {content : String}
    (hf : ⟨"src/lib/telegram/bot-client.ts", content, none⟩ ∈ x.output.files) :
    c.Proposes j.blueprint.resolvedSettings.generateDocs .content "src/lib/telegram/bot-client.ts"
      content := by
  obtain ⟨p, hp, -, -⟩ := contribution_eq_ok.mp hc
  have hmappings : p.mappings = [] := by
    rw [h.registry_eq] at hp
    simp only [List.mem_cons, List.not_mem_nil, or_false] at hkind
    rcases hkind with hkind | hkind
    · rw [hkind] at hp
      obtain rfl : BuiltIn.TelegramNotifications.plugin = p := Option.some.inj hp
      rfl
    · rw [hkind] at hp
      obtain rfl : BuiltIn.TelegramCommands.plugin = p := Option.some.inj hp
      rfl
  have hplain : Path.IsPlain "src/lib/telegram/bot-client.ts" := by decide +kernel
  have hplace : (⟨"src/lib/telegram/bot-client.ts", content, none⟩ : File).outputPath j.layout =
      .ok "src/lib/telegram/bot-client.ts" := by
    unfold File.outputPath
    rw [hplain.normalize_eq]
    rfl
  refine proposes_content.mpr ((NodeResult.puts_iff_emits hc).mpr (.file hp hf ?_))
  rw [hmappings]
  exact hplace

end Proposals

/-! ## Disputes -/

section Disputes
variable {cs : List Contribution}

/-- Every node has a result and contributes it under the id of its plugin. -/
theorem exists_contributed (h : j.Finished css rs)
    (hcs : List.Forall₂ (fun x c => j.contribution x = .ok c) rs cs) {n : Node}
    (hn : n ∈ j.blueprint.nodes) : ∃ x, ∃ c ∈ cs, j.contribution x = .ok c ∧ x.nodeKind = n.kind ∧
      c.pluginId = n.kind ∧ n.Returns x.output := by
  obtain ⟨x, hx, hkind, hreturns⟩ := h.exists_result hn
  obtain ⟨c, hc, hcontribution⟩ := exists_mem_of_forall₂ hcs.flip hx
  exact ⟨x, c, hc, hcontribution, hkind.symm, (h.pluginId_eq hx hcontribution).trans hkind.symm,
    hreturns⟩

theorem exists_notifications (h : j.Finished css rs)
    (hcs : List.Forall₂ (fun x c => j.contribution x = .ok c) rs cs)
    (hbot : j.blueprint.HasKind "telegram-notifications") :
    ∃ c ∈ cs, c.pluginId = "telegram-notifications" ∧
      c.Proposes j.blueprint.resolvedSettings.generateDocs .content "src/lib/telegram/bot-client.ts"
        BuiltIn.TelegramNotifications.botClient := by
  obtain ⟨n, hn, hkind⟩ := hbot
  obtain ⟨x, c, hc, hcontribution, hsame, hid, hreturns⟩ := h.exists_contributed hcs hn
  exact ⟨c, hc, hid.trans hkind,
    h.proposes_botClient hcontribution (by simp [hsame, hkind]) (hreturns.notifications hkind)⟩

theorem exists_commands (h : j.Finished css rs)
    (hcs : List.Forall₂ (fun x c => j.contribution x = .ok c) rs cs)
    (hbot : j.blueprint.HasKind "telegram-commands") :
    ∃ c ∈ cs, c.pluginId = "telegram-commands" ∧ ∃ o,
      c.Proposes j.blueprint.resolvedSettings.generateDocs .content "src/lib/telegram/bot-client.ts"
        (BuiltIn.TelegramCommands.botClient o) := by
  obtain ⟨n, hn, hkind⟩ := hbot
  obtain ⟨x, c, hc, hcontribution, hsame, hid, hreturns⟩ := h.exists_contributed hcs hn
  obtain ⟨o, ho⟩ := hreturns.commands hkind
  exact ⟨c, hc, hid.trans hkind, o,
    h.proposes_botClient hcontribution (by simp [hsame, hkind]) ho⟩

/-- Neither framework makes the client that notifications use. -/
theorem botClient_ne (o : Options.TelegramCommands) :
    BuiltIn.TelegramNotifications.botClient ≠ BuiltIn.TelegramCommands.botClient o := by
  unfold BuiltIn.TelegramNotifications.botClient BuiltIn.TelegramCommands.botClient
  cases o.framework with
  | grammy => decide +kernel
  | telegraf => decide +kernel

theorem disputed_of_bots (h : j.Finished css rs)
    (hcs : List.Forall₂ (fun x c => j.contribution x = .ok c) rs cs)
    (hbots : j.blueprint.HasBothBots) :
    Disputed cs j.blueprint.resolvedSettings.generateDocs .content
      "src/lib/telegram/bot-client.ts" := by
  obtain ⟨c, hc, -, hv⟩ := h.exists_notifications hcs hbots.1
  obtain ⟨d, hd, -, o, hw⟩ := h.exists_commands hcs hbots.2
  exact ⟨c, hc, d, hd, _, _, hv, hw, botClient_ne o⟩

/-- The plugins of both bots, and no other, have a client for them. -/
theorem listsInOrder_bots (h : j.Finished css rs)
    (hcs : List.Forall₂ (fun x c => j.contribution x = .ok c) rs cs)
    (hbots : j.blueprint.HasBothBots) :
    Text.ListsInOrder ["telegram-commands", "telegram-notifications"] fun plugin =>
      ∃ c ∈ cs, c.pluginId = plugin ∧ ∃ v, c.Proposes
        j.blueprint.resolvedSettings.generateDocs .content "src/lib/telegram/bot-client.ts" v := by
  refine ⟨by decide +kernel, fun plugin => ?_⟩
  constructor
  · intro hplugin
    simp only [List.mem_cons, List.not_mem_nil, or_false] at hplugin
    rcases hplugin with rfl | rfl
    · obtain ⟨d, hd, hid, o, hw⟩ := h.exists_commands hcs hbots.2
      exact ⟨d, hd, hid, _, hw⟩
    · obtain ⟨c, hc, hid, hv⟩ := h.exists_notifications hcs hbots.1
      exact ⟨c, hc, hid, _, hv⟩
  · rintro ⟨c, hc, rfl, v, hv⟩
    obtain ⟨x, hx, hcontribution⟩ := exists_mem_of_forall₂ hcs hc
    have hname : "bot-client.ts" = Topic.content.short "src/lib/telegram/bot-client.ts" := by
      decide +kernel
    have hshared : ("bot-client.ts", ["telegram-notifications", "telegram-commands"]) ∈
        BuiltIn.sharedKeys .content := by
      simp [BuiltIn.sharedKeys]
    have hkind := h.nodeKind_mem hx hcontribution hv hshared hname
    rw [h.pluginId_eq hx hcontribution]
    simpa [or_comm] using hkind

theorem disputed_of_appNames (h : j.Finished css rs)
    (hcs : List.Forall₂ (fun x c => j.contribution x = .ok c) rs cs)
    (hdiffer : j.blueprint.AppNamesDiffer) (docs : Bool) :
    Disputed cs docs .default "NEXT_PUBLIC_APP_NAME" := by
  obtain ⟨m, hm, n, hn, hmkind, hnkind, v, hv, w, hw, hvshown, hwshown, hne⟩ := hdiffer
  obtain ⟨x, c, hc, hcontribution, -, -, hxreturns⟩ := h.exists_contributed hcs hm
  obtain ⟨y, d, hd, hcontribution', -, -, hyreturns⟩ := h.exists_contributed hcs hn
  exact ⟨c, hc, d, hd, v, w,
    (proposes_appName_iff hcontribution hxreturns (by simp [hmkind])).mpr ⟨hv, hvshown⟩,
    (proposes_appName_iff hcontribution' hyreturns (by simp [hnkind])).mpr ⟨hw, hwshown⟩, hne⟩

/-- With one node of each kind there is nothing else to disagree over. -/
theorem disputed_cases (h : j.Finished css rs) (hlayout : BuiltIn.InDirectories j.layout)
    (hkinds : (j.blueprint.nodes.map (·.kind)).Nodup)
    (hcs : List.Forall₂ (fun x c => j.contribution x = .ok c) rs cs) {topic : Topic} {key : String}
    (hdisputed : Disputed cs j.blueprint.resolvedSettings.generateDocs topic key) :
    (topic = .content ∧ key = "src/lib/telegram/bot-client.ts" ∧ j.blueprint.HasBothBots) ∨
      topic = .default ∧ key = "NEXT_PUBLIC_APP_NAME" ∧ j.blueprint.AppNamesDiffer := by
  obtain ⟨c, hc, d, hd, v, w, hv, hw, hne⟩ := hdisputed
  obtain ⟨x, hx, hcontribution⟩ := exists_mem_of_forall₂ hcs hc
  obtain ⟨y, hy, hcontribution'⟩ := exists_mem_of_forall₂ hcs hd
  obtain ⟨m, hm, -, hmkind, hmreturns⟩ := h.exists_node hx
  obtain ⟨n, hn, -, hnkind, hnreturns⟩ := h.exists_node hy
  have hkind : x.nodeKind ≠ y.nodeKind := by
    intro hsame
    obtain rfl := h.result_ext hkinds hx hy hsame
    obtain rfl : c = d := Except.ok.inj (hcontribution.symm.trans hcontribution')
    exact hne (h.value_eq hx hcontribution hv hw)
  rcases h.clash_cases hlayout hx hy hkind hcontribution hcontribution' hv hw hne with
    ⟨rfl, rfl, hxbot, hybot⟩ | ⟨rfl, rfl, hxname, hyname⟩
  · left
    refine ⟨rfl, rfl, ?_⟩
    rcases eq_or_eq_of_ne hkind hxbot hybot with ⟨hfirst, hsecond⟩ | ⟨hsecond, hfirst⟩
    · exact ⟨⟨m, hm, hmkind.trans hfirst⟩, n, hn, hnkind.trans hsecond⟩
    · exact ⟨⟨n, hn, hnkind.trans hfirst⟩, m, hm, hmkind.trans hsecond⟩
  · right
    refine ⟨rfl, rfl, ?_⟩
    obtain ⟨hmname, hvshown⟩ :=
      (proposes_appName_iff hcontribution hmreturns (hmkind ▸ hxname)).mp hv
    obtain ⟨hnname, hwshown⟩ :=
      (proposes_appName_iff hcontribution' hnreturns (hnkind ▸ hyname)).mp hw
    rcases eq_or_eq_of_ne hkind hxname hyname with ⟨hfirst, hsecond⟩ | ⟨hsecond, hfirst⟩
    · exact ⟨m, hm, n, hn, hmkind.trans hfirst, hnkind.trans hsecond, v, hmname, w, hnname,
        hvshown, hwshown, hne⟩
    · exact ⟨n, hn, m, hm, hnkind.trans hfirst, hmkind.trans hsecond, w, hnname, v, hmname,
        hwshown, hvshown, hne.symm⟩

/-! ## Faults -/

theorem exists_collision (h : j.Finished css rs) (hlayout : BuiltIn.InDirectories j.layout)
    (hkinds : (j.blueprint.nodes.map (·.kind)).Nodup)
    (hcs : List.Forall₂ (fun x c => j.contribution x = .ok c) rs cs)
    (hbots : j.blueprint.HasBothBots) : ∃ nodes diagnostics,
      ProjectTree.ofContributions cs j.blueprint.resolvedSettings.generateDocs = .error
        ⟨.collision "src/lib/telegram/bot-client.ts" ["telegram-commands", "telegram-notifications"]
          nodes, diagnostics⟩ := by
  obtain ⟨⟨topic, key, values, nodes, plugins⟩, hmem, rfl, rfl⟩ :=
    Merge.exists_mem_disputes_iff.mpr (h.disputed_of_bots hcs hbots)
  have hamong := Merge.mem_disputes_iff_among.mp hmem
  obtain rfl := hamong.plugins.unique (h.listsInOrder_bots hcs hbots)
  -- Contents are reported first, and no other content is in dispute.
  obtain ⟨diagnostics, herror⟩ := ProjectTree.exists_ofContributions_eq_error hamong <| by
    intro e he hbefore
    rcases h.disputed_cases hlayout hkinds hcs he.disputed with ⟨htopic, hkey, -⟩ | ⟨htopic, -⟩
    · rcases hbefore with hrank | ⟨-, hless⟩
      · exact lt_irrefl _ (htopic ▸ hrank)
      · exact lt_irrefl _ (hkey ▸ hless)
    · rcases hbefore with hrank | ⟨hsame, -⟩
      · have hless : Topic.default.rank < Topic.content.rank := htopic ▸ hrank
        exact absurd hless (by decide)
      · cases htopic.symm.trans hsame
  exact ⟨nodes, diagnostics, herror⟩

theorem exists_conflict (h : j.Finished css rs) (hlayout : BuiltIn.InDirectories j.layout)
    (hkinds : (j.blueprint.nodes.map (·.kind)).Nodup)
    (hcs : List.Forall₂ (fun x c => j.contribution x = .ok c) rs cs)
    (hbots : ¬j.blueprint.HasBothBots) (hdiffer : j.blueprint.AppNamesDiffer) :
    ∃ values nodes diagnostics,
      ProjectTree.ofContributions cs j.blueprint.resolvedSettings.generateDocs = .error
        ⟨.conflict "env var default" "NEXT_PUBLIC_APP_NAME" values nodes, diagnostics⟩ := by
  obtain ⟨⟨topic, key, values, nodes, plugins⟩, hmem, rfl, rfl⟩ :=
    Merge.exists_mem_disputes_iff.mpr (h.disputed_of_appNames hcs hdiffer
      j.blueprint.resolvedSettings.generateDocs)
  have hamong := Merge.mem_disputes_iff_among.mp hmem
  obtain ⟨diagnostics, herror⟩ := ProjectTree.exists_ofContributions_eq_error hamong <| by
    intro e he hbefore
    rcases h.disputed_cases hlayout hkinds hcs he.disputed with ⟨-, -, hboth⟩ | ⟨htopic, hkey, -⟩
    · exact hbots hboth
    · rcases hbefore with hrank | ⟨-, hless⟩
      · exact lt_irrefl _ (htopic ▸ hrank)
      · exact lt_irrefl _ (hkey ▸ hless)
  exact ⟨values, nodes, diagnostics, herror⟩

end Disputes
end Job.Finished

/-! ## Blueprints -/

namespace Blueprint
variable {b : Blueprint} {a : Accepted}

theorem inDirectories_job (b : Blueprint) (a : Accepted) :
    BuiltIn.InDirectories (b.job .builtIn a {}).layout :=
  BuiltIn.inDirectories_ofNodes (by decide +kernel) (by decide +kernel) _ _

/-- One node of each kind compiles where neither bots nor names of the app are at odds and all that
shows a chain id can be written. -/
theorem exists_compile_of_agreeing (ha : b.accept .builtIn = .ok a)
    (hkinds : (b.nodes.map (·.kind)).Nodup) (hwrites : b.WritesScaffold)
    (hoverview : b.resolvedSettings.WritesOverview) (hbots : ¬b.HasBothBots)
    (hdiffer : ¬b.AppNamesDiffer) : ∃ trace c, b.compile .builtIn = (trace, .ok c) := by
  have hlayout := b.inDirectories_job a
  have hworkers : 0 ≤ Job.workers none := by decide
  obtain ⟨css, rs, hfinished, hcompile⟩ := compile_of_accept_builtIn ha hworkers hwrites {}
  obtain ⟨cs, hcs⟩ := exists_forall₂ fun x hx => hfinished.exists_contribution hlayout hx
  have hfree (topic : Topic) (key : String) :
      ¬Disputed cs b.resolvedSettings.generateDocs topic key := by
    intro hdisputed
    rcases hfinished.disputed_cases hlayout hkinds hcs hdisputed with ⟨-, -, h⟩ | ⟨-, -, h⟩
    · exact hbots h
    · exact hdiffer h
  obtain ⟨t, ht⟩ := hfinished.exists_assemble_iff.mpr ⟨hoverview, cs, hcs, hfree⟩
  rw [ht] at hcompile
  exact ⟨_, _, hcompile⟩

/-- A blank name of the app is at odds with no other. -/
example :
    let site : Node := ⟨"site", "frontend-scaffold", [("appName", .text "Shop")], none⟩
    let login : Node := ⟨"login", "wallet-auth", [("appName", .text " ")], none⟩
    site.appName = some "Shop" ∧ login.appName = some " " ∧
      ¬AppNamesDiffer { id := "shop", nodes := [site, login] } := by
  decide +kernel

/-- With one node of each kind, two kinds of bots collide, and where they do not, a frontend and
wallet authentication with different names for the app are in conflict. All else compiles, exactly
if the scaffold and the overview can be written. -/
theorem compile_oneOfEach (ha : b.accept .builtIn = .ok a)
    (hkinds : (b.nodes.map (·.kind)).Nodup) :
    (b.WritesScaffold → b.HasBothBots → ∃ trace nodes diagnostics, b.compile .builtIn =
      (trace, .error (.fault ⟨.collision "src/lib/telegram/bot-client.ts"
        ["telegram-commands", "telegram-notifications"] nodes, diagnostics⟩))) ∧
    (b.WritesScaffold → ¬b.HasBothBots → b.AppNamesDiffer →
      ∃ trace values nodes diagnostics, b.compile .builtIn =
        (trace, .error (.fault ⟨.conflict "env var default" "NEXT_PUBLIC_APP_NAME" values nodes,
          diagnostics⟩))) ∧
    (¬b.HasBothBots → ¬b.AppNamesDiffer → ((∃ trace c, b.compile .builtIn = (trace, .ok c)) ↔
      b.WritesScaffold ∧ b.resolvedSettings.WritesOverview)) := by
  have hlayout := b.inDirectories_job a
  have hworkers : 0 ≤ Job.workers none := by decide
  refine ⟨fun hwrites hbots => ?_, fun hwrites hbots hdiffer => ?_, fun hbots hdiffer => ?_⟩
  · obtain ⟨css, rs, hfinished, hcompile⟩ := compile_of_accept_builtIn ha hworkers hwrites {}
    obtain ⟨cs, hcs⟩ := exists_forall₂ fun x hx => hfinished.exists_contribution hlayout hx
    obtain ⟨nodes, diagnostics, hfault⟩ :=
      hfinished.exists_collision hlayout hkinds hcs hbots
    rw [Job.assemble_eq_error_of_fault hcs hfault] at hcompile
    exact ⟨_, nodes, diagnostics, hcompile⟩
  · obtain ⟨css, rs, hfinished, hcompile⟩ := compile_of_accept_builtIn ha hworkers hwrites {}
    obtain ⟨cs, hcs⟩ := exists_forall₂ fun x hx => hfinished.exists_contribution hlayout hx
    obtain ⟨values, nodes, diagnostics, hfault⟩ :=
      hfinished.exists_conflict hlayout hkinds hcs hbots hdiffer
    rw [Job.assemble_eq_error_of_fault hcs hfault] at hcompile
    exact ⟨_, values, nodes, diagnostics, hcompile⟩
  · constructor
    · rintro ⟨trace, c, hcompile⟩
      obtain ⟨-, a', css, hbuilds⟩ := exists_builds hcompile
      exact ⟨hbuilds.finished.writesScaffold,
        (hbuilds.finished.exists_assemble_iff.mp ⟨_, hbuilds.assemble_eq⟩).1⟩
    · rintro ⟨hwrites, hoverview⟩
      exact exists_compile_of_agreeing ha hkinds hwrites hoverview hbots hdiffer

/-- Two bots, a frontend and a login that name the app differently, and a frontend with a login that
names it not at all. -/
theorem compile_oneOfEach_bots :
    let bots : Blueprint :=
      { id := "b", nodes := [⟨"send", "telegram-notifications", [], none⟩,
        ⟨"chat", "telegram-commands", [], none⟩] }
    let shop : Blueprint :=
      { id := "b", nodes := [⟨"site", "frontend-scaffold", [("appName", .text "Shop")], none⟩,
        ⟨"login", "wallet-auth", [("appName", .text "Desk")], none⟩] }
    let quiet : Blueprint :=
      { id := "b", nodes := [⟨"site", "frontend-scaffold", [("appName", .text "Shop")], none⟩,
        ⟨"login", "wallet-auth", [], none⟩, ⟨"chat", "telegram-commands", [], none⟩] }
    (∃ trace nodes diagnostics, bots.compile .builtIn =
      (trace, .error (.fault ⟨.collision "src/lib/telegram/bot-client.ts"
        ["telegram-commands", "telegram-notifications"] nodes, diagnostics⟩))) ∧
    (∃ trace values nodes diagnostics, shop.compile .builtIn =
      (trace, .error (.fault ⟨.conflict "env var default" "NEXT_PUBLIC_APP_NAME" values nodes,
        diagnostics⟩))) ∧
    ∃ trace c, quiet.compile .builtIn = (trace, .ok c) := by
  intro bots shop quiet
  have haccepted {b : Blueprint} (h : (b.accept .builtIn).toOption.isSome = true) :
      ∃ a, b.accept .builtIn = .ok a := by
    obtain ⟨a, ha⟩ := Option.isSome_iff_exists.mp h
    exact ⟨a, toOption_eq_some.mp ha⟩
  obtain ⟨a, hbots⟩ := haccepted (b := bots) (by decide +kernel)
  obtain ⟨a', hshop⟩ := haccepted (b := shop) (by decide +kernel)
  obtain ⟨a'', hquiet⟩ := haccepted (b := quiet) (by decide +kernel)
  have hwritable {b : Blueprint} (h : b.settings = none) :
      b.resolvedSettings.isWritable = true := by
    rw [resolvedSettings, h]
    rfl
  refine ⟨?_, ?_, ?_⟩
  · exact (compile_oneOfEach hbots (by decide +kernel)).1 (fun _ => hwritable rfl)
      (by decide +kernel)
  · exact (compile_oneOfEach hshop (by decide +kernel)).2.1 (fun _ => hwritable rfl)
      (by decide +kernel) (by decide +kernel)
  · exact ((compile_oneOfEach hquiet (by decide +kernel)).2.2 (by decide +kernel)
      (by decide +kernel)).mpr ⟨fun _ => hwritable rfl, fun _ => hwritable rfl⟩

/-- A chain id of 4301 digits keeps a login from its overview and a frontend from its scaffold, and
workers less than none keep the login from being called. -/
theorem compile_oneOfEach_overlong :
    let wide (kind : String) : Blueprint := {
      id := "b", nodes := [⟨"n", kind, [], none⟩]
      settings := some {
        project := { name := "B" }, network := some { chainId := Nat.pow 10 4300, name := "N" } } }
    let login : Blueprint := { id := "b", nodes := [⟨"w", "wallet-auth", [], none⟩] }
    let failure : PluginFailure := ⟨"n", "frontend-scaffold", .raised .overlong⟩
    ((wide "wallet-auth").compile .builtIn).2.map (·.results) = .error (.raised .overlong) ∧
      ((wide "frontend-scaffold").compile .builtIn).2.map (·.results) =
        .error (.fault (.ofKind (.plugin failure []))) ∧
      (login.compile .builtIn {} (some (-1))).2.map (·.results) = .error .workers ∧
      ∀ b ∈ [wide "wallet-auth", wide "frontend-scaffold", login],
        (b.accept .builtIn).toOption.isSome = true ∧ (b.nodes.map (·.kind)).Nodup ∧
          ¬b.HasBothBots ∧ ¬b.AppNamesDiffer := by
  decide +kernel

end Blueprint
end ProjectComposer
