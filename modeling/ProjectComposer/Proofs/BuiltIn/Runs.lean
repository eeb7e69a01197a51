import ProjectComposer.Proofs.BuiltIn.Outputs
import ProjectComposer.Proofs.BuiltIn.Places
import ProjectComposer.Proofs.Layout.Shape
import ProjectComposer.Proofs.Validation.DependencyGraph

/-!
Runs of built-in generators. None of them fails, but for a scaffold with a chain id that cannot be
written; so every node of an accepted blueprint has its result otherwise. What a slot holds is
settled by the nodes that feed it, and these by arcs and layers; so a node has the same result in a
blueprint with more nodes, provided that no generator takes the outputs of the kinds that were added
and that the directories of the frontend are the same.
-/
namespace ProjectComposer
set_option autoImplicit false

/-! ## Slots -/

namespace Context
variable {x : Context} {slot : String} {us : List String}

theorem Lists.wired (h : x.Lists slot us) :
    List.Forall₂ (fun u o => x.outputs.get? u = some o) us (x.wired slot) := by
  obtain ⟨os, hos, hslot⟩ := h
  unfold Context.wired
  rw [hslot]
  split
  · next hnil =>
    subst hnil
    exact .nil
  · exact hos

theorem isSome_input : (x.input slot).isSome = true ↔ x.wired slot ≠ [] := by
  unfold input
  cases x.wired slot with
  | nil => simp
  | cons o os => simp

end Context

/-- Where a blueprint has a frontend, its chain id can be written into the scaffold. -/
def Blueprint.WritesScaffold (b : Blueprint) : Prop :=
  b.HasKind "frontend-scaffold" → b.resolvedSettings.isWritable = true

namespace Job

/-- A node is seen by a call and leads to one of its slots. -/
def Feeds (j : Job) (c : Call) (slot u : String) : Prop :=
  j.Shows c u ∧ u ∈ j.blueprint.sources c.node.id c.plugin slot

section Calls
variable {j : Job} {css : List (List Call)} {ended : Except Failure (List NodeResult)}
  (hran : j.Ran [] j.accepted.plan.layers css ended) (h : j.Valid) {i : ℕ} (hi : i < css.length)
  {c : Call} (hc : c ∈ css[i])
include hran h hi hc

theorem exists_feeds (slot : String) :
    ∃ us, c.context.Lists slot us ∧ ∀ u, u ∈ us ↔ j.Feeds c slot u := by
  refine ⟨_, lists_sources hran h hi hc slot, fun u => ?_⟩
  rw [List.mem_filter, mem_distinct, Table.has_iff, mem_keys_iff hran h hi hc, and_comm]
  rfl

/-- An output is wired to a slot if some node feeds it. -/
theorem isSome_input_iff (slot : String) :
    (c.context.input slot).isSome = true ↔ ∃ u, j.Feeds c slot u := by
  obtain ⟨us, hlists, hus⟩ := exists_feeds hran h hi hc slot
  rw [Context.isSome_input, ← List.length_pos_iff, ← hlists.wired.length_eq,
    List.length_pos_iff_exists_mem]
  exact exists_congr hus

end Calls

/-! ## Results -/

/-- A run of built-in generators that came to its end. -/
structure Finished (j : Job) (css : List (List Call)) (rs : List NodeResult) : Prop where
  valid : j.Valid
  registry_eq : j.registry = .builtIn
  ran : j.Ran [] j.accepted.plan.layers css (.ok rs)
  gives : List.Forall₂ Call.Gives css.flatten rs
  nodeIds_eq : css.flatten.map (·.node.id) = j.accepted.plan.order

theorem Call.returns_iff {c : Call} (hp : c.plugin ∈ BuiltIn.plugins) {o : Output} :
    c.Returns o ↔ (c.plugin.generate c.node c.context).result = .ok (.output o) := by
  obtain ⟨s, hkeeps, -⟩ := BuiltIn.exists_footprint hp
  constructor
  · rintro ⟨returned, hreturned, haccept⟩
    rcases hkeeps c.node c.context with ⟨o', ho', -⟩ | ⟨-, -, hoverlong⟩
    · obtain rfl := Except.ok.inj (ho'.symm.trans hreturned)
      rw [ho', Except.ok.inj haccept]
    · cases hoverlong.symm.trans hreturned
  · intro ho
    exact ⟨_, ho, rfl⟩

/-- A call of a built-in generator has an output, if it is for a scaffold only with a chain id that
can be written. -/
theorem Call.exists_returns_iff {c : Call} (hp : c.plugin ∈ BuiltIn.plugins) :
    (∃ o, c.Returns o) ↔
      (c.plugin.id = "frontend-scaffold" → c.context.settings.isWritable = true) := by
  obtain ⟨s, hkeeps, -⟩ := BuiltIn.exists_footprint hp
  simp only [Call.returns_iff hp]
  constructor
  · rintro ⟨o, ho⟩ hid
    rw [BuiltIn.Frontend.eq_plugin_of_id hp hid] at ho
    exact (BuiltIn.Frontend.result_eq_ok ho).1
  · intro hwrites
    rcases hkeeps c.node c.context with ⟨o, ho, -⟩ | ⟨hid, hunwritable, -⟩
    · exact ⟨o, ho⟩
    · rw [hwrites hid] at hunwritable
      cases hunwritable

section Endings
variable {j : Job} {css : List (List Call)}

theorem Ran.finished {rs : List NodeResult} (hran : j.Ran [] j.accepted.plan.layers css (.ok rs))
    (h : j.Valid) (hregistry : j.registry = .builtIn) : j.Finished css rs := by
  obtain ⟨hlength, rs', hended, hgives⟩ := hran.of_returns hran.returns_of_ok
  obtain rfl := Except.ok.inj hended
  have hlayers : css.map (·.map (·.node.id)) = j.accepted.plan.layers :=
    hran.isPrefix.eq_of_length (by simpa using hlength)
  refine ⟨h, hregistry, hran, hgives, ?_⟩
  rw [Plan.order, ← hlayers, List.map_flatten]

theorem Valid.exists_finished (h : j.Valid) (hregistry : j.registry = .builtIn)
    {asked : Option Int} (hworkers : 0 ≤ workers asked) (hwrites : j.blueprint.WritesScaffold) :
    ∃ css rs, j.run asked = (.ofCalls css.flatten, .ok rs) ∧ j.Finished css rs := by
  obtain ⟨css, htrace, hran⟩ := h.exists_ran hworkers
  have hreturns : ∀ c ∈ css.flatten, ∃ o, c.Returns o := by
    intro c hc
    obtain ⟨seen, hcall⟩ := hran.exists_call hc
    obtain ⟨hnode, hplugin, config, -, hcontext⟩ := call_eq_ok.mp hcall
    rw [hregistry] at hplugin
    obtain ⟨hp, hid⟩ := Registry.mem_of_get?_builtIn hplugin
    refine (Call.exists_returns_iff hp).mpr fun hscaffold => ?_
    rw [hcontext]
    exact hwrites ⟨c.node, (Blueprint.id_of_node? hnode).1, hid.symm.trans hscaffold⟩
  obtain ⟨-, rs, hended, -⟩ := hran.of_returns hreturns
  rw [hended] at hran
  exact ⟨css, rs, Prod.ext htrace hended, hran.finished h hregistry⟩

theorem Valid.exists_finished_of_run (h : j.Valid) (hregistry : j.registry = .builtIn)
    {asked : Option Int} {trace : Trace} {rs : List NodeResult}
    (hrun : j.run asked = (trace, .ok rs)) : ∃ css, trace = .ofCalls css.flatten ∧
      j.Finished css rs := by
  obtain ⟨hworkers, -⟩ := run_eq_ok.mp hrun
  obtain ⟨css, htrace, hran⟩ := h.exists_ran hworkers
  rw [hrun] at htrace hran
  exact ⟨css, htrace, hran.finished h hregistry⟩

end Endings

namespace Finished
variable {j : Job} {css : List (List Call)} {rs : List NodeResult}

theorem nodeIds_results (h : j.Finished css rs) :
    rs.map (·.nodeId) = j.accepted.plan.order := by
  rw [Call.nodeIds_eq_of_gives h.gives, h.nodeIds_eq]

theorem nodeId_mem (h : j.Finished css rs) {x : NodeResult} (hx : x ∈ rs) :
    x.nodeId ∈ j.blueprint.nodeIds := by
  rw [← h.valid.perm_order.mem_iff, ← h.nodeIds_results]
  exact List.mem_map_of_mem hx

theorem nodup_nodeIds_results (h : j.Finished css rs) : (rs.map (·.nodeId)).Nodup := by
  rw [h.nodeIds_results]
  exact h.valid.nodup_order

/-- A call is for a node of a built-in kind, on its config and on what is fixed for the job. -/
theorem of_call (h : j.Finished css rs) {c : Call} (hc : c ∈ css.flatten) :
    c.node ∈ j.blueprint.nodes ∧ Registry.builtIn.get? c.node.kind = some c.plugin ∧
      j.accepted.configs.get? c.node.id = some c.context.config ∧
      c.context.settings = j.blueprint.resolvedSettings ∧ c.context.layout = j.layout := by
  obtain ⟨seen, hcall⟩ := h.ran.exists_call hc
  obtain ⟨hnode, hplugin, config, hconfig, hcontext⟩ := call_eq_ok.mp hcall
  rw [h.registry_eq] at hplugin
  rw [hcontext]
  exact ⟨(Blueprint.id_of_node? hnode).1, hplugin, hconfig, rfl, rfl⟩

theorem plugin_mem (h : j.Finished css rs) {c : Call} (hc : c ∈ css.flatten) :
    c.plugin ∈ BuiltIn.plugins ∧ c.plugin.id = c.node.kind :=
  Registry.mem_of_get?_builtIn (h.of_call hc).2.1

/-- Nodes of one blueprint with one id are one node. -/
theorem node_ext (h : j.Finished css rs) {m n : Node} (hm : m ∈ j.blueprint.nodes)
    (hn : n ∈ j.blueprint.nodes) (hid : m.id = n.id) : m = n :=
  List.inj_on_of_nodup_map h.valid.nodup_nodeIds hm hn hid

theorem exists_call (h : j.Finished css rs) {n : Node} (hn : n ∈ j.blueprint.nodes) :
    ∃ (i : ℕ) (hi : i < css.length), ∃ c ∈ css[i], c.node = n := by
  have hid : n.id ∈ css.flatten.map (·.node.id) := by
    rw [h.nodeIds_eq, h.valid.perm_order.mem_iff]
    exact List.mem_map_of_mem hn
  obtain ⟨c, hc, hsame⟩ := List.mem_map.mp hid
  have hnode := h.node_ext (h.of_call hc).1 hn hsame
  obtain ⟨cs, hcs, hmem⟩ := List.mem_flatten.mp hc
  obtain ⟨i, hi, rfl⟩ := List.mem_iff_getElem.mp hcs
  exact ⟨i, hi, c, hmem, hnode⟩

/-- Where a run came to its end, the scaffold could be made. -/
theorem writesScaffold (h : j.Finished css rs) : j.blueprint.WritesScaffold := by
  rintro ⟨n, hn, hkind⟩
  obtain ⟨i, hi, c, hc, rfl⟩ := h.exists_call hn
  have hmem : c ∈ css.flatten := List.mem_flatten.mpr ⟨_, List.getElem_mem hi, hc⟩
  obtain ⟨hp, hid⟩ := h.plugin_mem hmem
  rw [← (h.of_call hmem).2.2.2.1]
  exact (Call.exists_returns_iff hp).mp (h.ran.returns_of_ok c hmem) (hid.trans hkind)

/-- The results are what the calls returned. -/
theorem mem_results_iff (h : j.Finished css rs) {x : NodeResult} : x ∈ rs ↔
    ∃ c ∈ css.flatten, x.nodeId = c.node.id ∧ x.nodeKind = c.node.kind ∧
      (c.plugin.generate c.node c.context).result = .ok (.output x.output) := by
  constructor
  · intro hx
    obtain ⟨c, hc, hgives⟩ := exists_mem_of_forall₂ h.gives hx
    exact ⟨c, hc, hgives.nodeId_eq, hgives.nodeKind_eq,
      (Call.returns_iff (h.plugin_mem hc).1).mp hgives.returns⟩
  · rintro ⟨c, hc, hid, hkind, ho⟩
    obtain ⟨y, hy, hgives⟩ := exists_mem_of_forall₂ h.gives.flip hc
    have hreturns := (Call.returns_iff (h.plugin_mem hc).1).mp hgives.returns
    have houtput : x.output = y.output :=
      Returned.output.inj (Except.ok.inj (ho.symm.trans hreturns))
    have hsame : y = x := by
      obtain ⟨id, kind, o⟩ := x
      obtain ⟨id', kind', o'⟩ := y
      rw [NodeResult.mk.injEq]
      exact ⟨hgives.nodeId_eq.trans hid.symm, hgives.nodeKind_eq.trans hkind.symm, houtput.symm⟩
    exact hsame ▸ hy

/-- The result with the id of a call's node is what this call returned. -/
theorem mem_results_iff_of_call (h : j.Finished css rs) {c : Call} (hc : c ∈ css.flatten)
    {x : NodeResult} (hid : x.nodeId = c.node.id) : x ∈ rs ↔ x.nodeKind = c.node.kind ∧
      (c.plugin.generate c.node c.context).result = .ok (.output x.output) := by
  rw [h.mem_results_iff]
  constructor
  · rintro ⟨d, hd, hid', hresult⟩
    obtain rfl := List.inj_on_of_nodup_map (h.valid.nodup_ids h.ran) hd hc (hid'.symm.trans hid)
    exact hresult
  · intro hresult
    exact ⟨c, hc, hid, hresult⟩

/-- The addresses that a call finds in a slot are those of the contract nodes that feed it. -/
theorem mem_addresses_iff (h : j.Finished css rs) {i : ℕ} (hi : i < css.length) {c : Call}
    (hc : c ∈ css[i]) {slot key : String} :
    key ∈ (BuiltIn.addresses (c.context.wired slot)).map Prod.fst ↔
      key = BuiltIn.addressKey ∧ ∃ m ∈ j.blueprint.nodes, j.Feeds c slot m.id ∧
        m.kind = BuiltIn.NftContract.plugin.id := by
  obtain ⟨us, hlists, hus⟩ := exists_feeds h.ran h.valid hi hc slot
  have hfound {u : String} {o : Output} (ho : c.context.outputs.get? u = some o) :
      ∃ d ∈ css.flatten, d.node.id = u ∧ (BuiltIn.Exposes o key ↔
        d.node.kind = BuiltIn.NftContract.plugin.id ∧ key = BuiltIn.addressKey) := by
    have hstored := ((mem_outputs_iff h.ran h.valid hi hc).mp (Table.mem_of_get? ho)).2
    obtain ⟨d, hd, hid, hreturns⟩ := (stored_iff h.ran).mp hstored
    obtain ⟨hplugin, hkind⟩ := h.plugin_mem hd
    refine ⟨d, hd, hid, ?_⟩
    rw [BuiltIn.exposes_iff hplugin ((Call.returns_iff hplugin).mp hreturns), hkind]
  rw [BuiltIn.mem_map_fst_addresses]
  constructor
  · rintro ⟨o, ho, hexposes⟩
    obtain ⟨u, hu, hget⟩ := exists_mem_of_forall₂ hlists.wired ho
    obtain ⟨d, hd, rfl, hiff⟩ := hfound hget
    obtain ⟨hkind, hkey⟩ := hiff.mp hexposes
    exact ⟨hkey, d.node, (h.of_call hd).1, (hus _).mp hu, hkind⟩
  · rintro ⟨hkey, m, hm, hfeeds, hkind⟩
    obtain ⟨o, ho, hget⟩ := exists_mem_of_forall₂ hlists.wired.flip ((hus _).mpr hfeeds)
    obtain ⟨d, hd, hid, hiff⟩ := hfound hget
    have hnode := h.node_ext (h.of_call hd).1 hm hid
    exact ⟨o, ho, hiff.mpr ⟨hnode ▸ hkind, hkey⟩⟩

end Finished

/-! ## More nodes -/

/-- No built-in generator takes the outputs of a kind. -/
def IsUnneeded (kind : String) : Prop :=
  ∀ p ∈ BuiltIn.plugins, ∀ need ∈ p.needs, need.kind ≠ kind

instance (kind : String) : Decidable (IsUnneeded kind) :=
  inferInstanceAs (Decidable (∀ p ∈ BuiltIn.plugins, ∀ need ∈ p.needs, need.kind ≠ kind))

/-- Two runs of built-in generators under layouts of one shape, one of them with more nodes, of
kinds that no generator takes. -/
structure RunsWidened (j' j : Job) (added : List Node) (css' css : List (List Call))
    (rs' rs : List NodeResult) : Prop where
  widens : j'.Widens j added
  finished' : j'.Finished css' rs'
  finished : j.Finished css rs
  unneeded : ∀ n ∈ added, IsUnneeded n.kind
  shape_eq : j'.layout.shape = j.layout.shape

namespace RunsWidened
variable {j' j : Job} {added : List Node} {css' css : List (List Call)} {rs' rs : List NodeResult}
  {c' c : Call}

/-- The nodes of a kind that a generator takes are the same. -/
theorem exists_needed_iff (h : j'.RunsWidened j added css' css rs' rs) {p : Plugin}
    (hp : p ∈ BuiltIn.plugins) {need : Need} (hneed : need ∈ p.needs) {met : Node → Prop} :
    (∃ m ∈ j'.blueprint.nodes, m.kind = need.kind ∧ met m) ↔
      ∃ m ∈ j.blueprint.nodes, m.kind = need.kind ∧ met m := by
  refine exists_congr fun m => ?_
  rw [h.widens.blueprint.mem_nodes]
  refine and_congr_left fun hm => or_iff_right fun hadded => ?_
  exact h.unneeded m hadded p hp need hneed hm.1.symm

theorem shows_iff (h : j'.RunsWidened j added css' css rs' rs) (hnode : c'.node = c.node)
    (hplugin : c'.plugin = c.plugin) (hc : c ∈ css.flatten) {u : String} :
    j'.Shows c' u ↔ j.Shows c u := by
  have hid : c.node.id ∈ j.blueprint.nodeIds := List.mem_map_of_mem (h.finished.of_call hc).1
  have hp := (h.finished.plugin_mem hc).1
  have hwanted : (∃ m ∈ j'.blueprint.nodes, m.id = u ∧
      ∃ need ∈ c.plugin.optionalNeeds, need.kind = m.kind) ↔
      ∃ m ∈ j.blueprint.nodes, m.id = u ∧ ∃ need ∈ c.plugin.optionalNeeds, need.kind = m.kind := by
    refine exists_congr fun m => ?_
    rw [h.widens.blueprint.mem_nodes]
    refine and_congr_left fun hm => or_iff_right fun hadded => ?_
    obtain ⟨-, need, hneed, hkind⟩ := hm
    exact h.unneeded m hadded _ hp need (List.mem_filter.mp hneed).1 hkind
  unfold Shows
  rw [hnode, hplugin, h.widens.arc_eq, hwanted]
  refine and_congr_right fun _ => or_congr_right (and_congr_right ?_)
  rintro ⟨m, hm, rfl, -⟩
  exact h.widens.before_iff (List.mem_map_of_mem hm) hid

theorem feeds_iff (h : j'.RunsWidened j added css' css rs' rs) (hnode : c'.node = c.node)
    (hplugin : c'.plugin = c.plugin) (hc : c ∈ css.flatten) {slot u : String} :
    j'.Feeds c' slot u ↔ j.Feeds c slot u := by
  have hp := (h.finished.plugin_mem hc).1
  unfold Feeds
  rw [h.shows_iff hnode hplugin hc, hnode, hplugin, Blueprint.sources, Blueprint.sources,
    List.mem_append, List.mem_append, Blueprint.mem_edgeSources, Blueprint.mem_edgeSources,
    Blueprint.mem_needSources, Blueprint.mem_needSources]
  simp only [h.widens.blueprint.perm_edges.mem_iff]
  refine and_congr_right fun _ => or_congr_right (exists_congr fun need => ?_)
  refine and_congr_right fun hneed => and_congr_right fun _ => ?_
  exact h.exists_needed_iff hp hneed

/-- A feeding node of the wider blueprint is one of the smaller. -/
theorem exists_feeding_iff (h : j'.RunsWidened j added css' css rs' rs) (hnode : c'.node = c.node)
    (hplugin : c'.plugin = c.plugin) (hc : c ∈ css.flatten) {slot kind : String} :
    (∃ m ∈ j'.blueprint.nodes, j'.Feeds c' slot m.id ∧ m.kind = kind) ↔
      ∃ m ∈ j.blueprint.nodes, j.Feeds c slot m.id ∧ m.kind = kind := by
  refine exists_congr fun m => ?_
  rw [h.feeds_iff hnode hplugin hc, h.widens.blueprint.mem_nodes]
  refine and_congr_left fun hm => or_iff_right fun hadded => ?_
  -- An added node has no arcs and is of no kind that a generator takes, so it is not shown.
  obtain ⟨⟨⟨-, harc | ⟨⟨n, hn, hid, -⟩, -⟩⟩, -⟩, -⟩ := hm
  · exact (h.widens.not_arc hadded _).2 harc
  · have hmem : m.id ∈ j.blueprint.nodeIds := hid ▸ List.mem_map_of_mem hn
    exact h.widens.blueprint.not_mem_added h.widens.valid'.nodup_nodeIds hmem hadded

/-- The calls for one node read the same. -/
theorem readsAlike (h : j'.RunsWidened j added css' css rs' rs) {i' i : ℕ} (hi' : i' < css'.length)
    (hi : i < css.length) (hc' : c' ∈ css'[i']) (hc : c ∈ css[i]) (hnode : c'.node = c.node) :
    c'.plugin = c.plugin ∧ BuiltIn.ReadsAlike c'.context c.context := by
  have hmem' : c' ∈ css'.flatten := List.mem_flatten.mpr ⟨_, List.getElem_mem hi', hc'⟩
  have hmem : c ∈ css.flatten := List.mem_flatten.mpr ⟨_, List.getElem_mem hi, hc⟩
  obtain ⟨-, hplugin', hconfig', hsettings', hlayout'⟩ := h.finished'.of_call hmem'
  obtain ⟨hn, hplugin, hconfig, hsettings, hlayout⟩ := h.finished.of_call hmem
  rw [hnode] at hplugin' hconfig'
  have hsame : c'.plugin = c.plugin := Option.some.inj (hplugin'.symm.trans hplugin)
  have hinput (slot : String) :
      (c'.context.input slot).isSome = (c.context.input slot).isSome := by
    rw [Bool.eq_iff_iff, isSome_input_iff h.finished'.ran h.finished'.valid hi' hc',
      isSome_input_iff h.finished.ran h.finished.valid hi hc]
    exact exists_congr fun u => h.feeds_iff hnode hsame hmem
  have hread : c'.context.settings = c.context.settings := by
    rw [hsettings', hsettings, h.widens.blueprint.resolvedSettings_eq]
  refine ⟨hsame, congrArg _ hread, congrArg _ hread, ?_, ?_, ?_, hinput _, hinput _, ?_⟩
  · rw [h.widens.get?_configs_eq hn] at hconfig'
    exact Option.some.inj (hconfig'.symm.trans hconfig)
  · rw [hlayout', hlayout]
    exact (Layout.frontend_congr h.shape_eq).1
  · rw [hlayout', hlayout]
    exact (Layout.frontend_congr h.shape_eq).2
  · refine BuiltIn.map_fst_addresses_congr fun key => ?_
    rw [h.finished'.mem_addresses_iff hi' hc', h.finished.mem_addresses_iff hi hc]
    exact and_congr_right fun _ => h.exists_feeding_iff hnode hsame hmem

/-- A node of the smaller blueprint has the same result in both runs. -/
theorem mem_results_iff (h : j'.RunsWidened j added css' css rs' rs) {x : NodeResult}
    (hx : x.nodeId ∈ j.blueprint.nodeIds) : x ∈ rs' ↔ x ∈ rs := by
  obtain ⟨n, hn, hid⟩ := List.mem_map.mp hx
  obtain ⟨i', hi', c', hc', hnode'⟩ :=
    h.finished'.exists_call (h.widens.blueprint.mem_nodes_of_mem hn)
  obtain ⟨i, hi, c, hc, hnode⟩ := h.finished.exists_call hn
  obtain ⟨hplugin, halike⟩ := h.readsAlike hi' hi hc' hc (hnode'.trans hnode.symm)
  have hmem' : c' ∈ css'.flatten := List.mem_flatten.mpr ⟨_, List.getElem_mem hi', hc'⟩
  have hmem : c ∈ css.flatten := List.mem_flatten.mpr ⟨_, List.getElem_mem hi, hc⟩
  have hresult : (c'.plugin.generate c'.node c'.context).result =
      (c.plugin.generate c.node c.context).result := by
    rw [hplugin]
    exact BuiltIn.result_congr (h.finished.plugin_mem hmem).1 halike _ _
  rw [h.finished'.mem_results_iff_of_call hmem' (by rw [hnode', hid]),
    h.finished.mem_results_iff_of_call hmem (by rw [hnode, hid]), hresult, hnode', hnode]

end RunsWidened
end Job
end ProjectComposer
