import Mathlib.Data.List.Flatten
import ProjectComposer.Proofs.Execution.Calls
import ProjectComposer.Proofs.Execution.Slots

/-!
What a generator sees when it is called. The outputs in its context are those stored for the nodes
that it depends on and for nodes of earlier layers whose kind its plugin takes if it is there; a
slot lists those of them that an edge or a need leads to it. All that a plugin requires is there:
the producers of its required inputs and all nodes of the kinds of its required needs.
-/
namespace ProjectComposer
set_option autoImplicit false

/-! ## What a call should see -/

/-- One node lies in an earlier layer than another. -/
def Plan.Before (p : Plan) (u v : String) : Prop :=
  ∃ (m n : ℕ) (hm : m < p.layers.length) (hn : n < p.layers.length),
    m < n ∧ u ∈ p.layers[m] ∧ v ∈ p.layers[n]

/-- The outputs in a slot are those of given nodes, in turn. A slot without nodes is absent. -/
def Context.Lists (x : Context) (slot : String) (us : List String) : Prop :=
  ∃ os, List.Forall₂ (fun u o => x.outputs.get? u = some o) us os ∧
    x.inputs.get? slot = if us = [] then none else some os

theorem Context.Lists.input {x : Context} {slot u : String} {us : List String}
    (h : x.Lists slot (u :: us)) :
    ∃ o, x.outputs.get? u = some o ∧ ∀ default, x.input slot default = some o := by
  obtain ⟨os, hos, hslot⟩ := h
  obtain _ | ⟨ho, _⟩ := hos
  refine ⟨_, ho, fun default => ?_⟩
  rw [Context.input, Context.wired, hslot]
  rfl

namespace Job

/-- A call that a run made: the context of a node with the node and its plugin. -/
structure Made (j : Job) (t : Trace) (c : Call) : Prop where
  mem_calls : c.context ∈ t.calls
  node?_eq : j.blueprint.node? c.context.nodeId = some c.node
  get?_eq : j.registry.get? c.node.kind = some c.plugin

/-- The output of a node that a run stored: what the call for the node returned. -/
def Stored (j : Job) (t : Trace) (u : String) (o : Output) : Prop :=
  ∃ d, j.Made t d ∧ d.node.id = u ∧ d.Returns o

/-- Whether a call may see the output of a node. -/
def Shows (j : Job) (c : Call) (u : String) : Prop :=
  u ≠ c.node.id ∧ (j.accepted.graph.Arc u c.node.id ∨
    (∃ m ∈ j.blueprint.nodes, m.id = u ∧ ∃ need ∈ c.plugin.optionalNeeds, need.kind = m.kind) ∧
      j.accepted.plan.Before u c.node.id)

/-- What the context of a call holds. -/
structure Sees (j : Job) (t : Trace) (c : Call) : Prop where
  /-- Outputs are in the order of the blueprint. -/
  sublist : c.context.outputs.keys.Sublist j.blueprint.nodeIds
  mem_keys_iff : ∀ u, u ∈ c.context.outputs.keys ↔ j.Shows c u
  mem_outputs_iff : ∀ u o, (u, o) ∈ c.context.outputs ↔ j.Shows c u ∧ j.Stored t u o
  nodup_slots : c.context.inputs.keys.Nodup
  /-- A slot lists its visible sources once each: those of edges in the order of the edges, then
  those of needs, by need and then in the order of the blueprint. -/
  slots : ∀ slot, ∃ us, c.context.Lists slot us ∧ us.Nodup ∧
    (∀ u, u ∈ us ↔ j.Shows c u ∧
      ((∃ e ∈ j.blueprint.edges, e.target = ⟨c.node.id, slot⟩ ∧ e.source.node = u) ∨
        ∃ need ∈ c.plugin.needs, (∃ s ∈ need.slots, s.2 = slot) ∧
          ∃ m ∈ j.blueprint.nodes, m.kind = need.kind ∧ m.id = u)) ∧
    us.Pairwise fun u w =>
      (j.blueprint.sources c.node.id c.plugin slot).idxOf u <
        (j.blueprint.sources c.node.id c.plugin slot).idxOf w

/-- What a call has of all that its plugin requires. -/
structure Supplied (j : Job) (t : Trace) (c : Call) : Prop where
  inputs : ∀ q ∈ c.plugin.inputPorts, q.required = true →
    ∃ u us o, c.context.Lists q.id (u :: us) ∧ j.Stored t u o ∧
      ∀ default, c.context.input q.id default = some o
  needs : ∀ need ∈ c.plugin.requiredNeeds, ∀ m ∈ j.blueprint.nodes, m.kind = need.kind →
    m.id ≠ c.node.id → ∃ o, j.Stored t m.id o ∧ c.context.outputs.get? m.id = some o ∧
      ∀ s ∈ need.slots, ∃ us, c.context.Lists s.2 us ∧ m.id ∈ us

/-! ## Layers -/

namespace Valid
variable {j : Job}

theorem layer_unique (h : j.Valid) {m n : ℕ} (hm : m < j.accepted.plan.layers.length)
    (hn : n < j.accepted.plan.layers.length) {v : String} (hvm : v ∈ j.accepted.plan.layers[m])
    (hvn : v ∈ j.accepted.plan.layers[n]) : m = n :=
  (h.isLayering.isGreatest m hm v hvm).unique (h.isLayering.isGreatest n hn v hvn)

theorem not_before_self (h : j.Valid) (v : String) : ¬j.accepted.plan.Before v v := by
  rintro ⟨m, n, hm, hn, hlt, hvm, hvn⟩
  exact hlt.ne (h.layer_unique hm hn hvm hvn)

theorem exists_layer (h : j.Valid) {v : String} (hv : v ∈ j.blueprint.nodeIds) :
    ∃ (n : ℕ) (hn : n < j.accepted.plan.layers.length), v ∈ j.accepted.plan.layers[n] := by
  obtain ⟨layer, hlayer, hmem⟩ := List.mem_flatten.mp (h.isLayering.perm.mem_iff.mpr hv)
  obtain ⟨n, hn, rfl⟩ := List.mem_iff_getElem.mp hlayer
  exact ⟨n, hn, hmem⟩

theorem before_of_arc (h : j.Valid) {u v : String} (harc : j.accepted.graph.Arc u v) :
    j.accepted.plan.Before u v := by
  obtain ⟨m, hm, hu⟩ := h.exists_layer (h.nodes_eq ▸ h.wellFormed.source_mem harc)
  obtain ⟨n, hn, hv⟩ := h.exists_layer (h.nodes_eq ▸ harc.target_mem)
  exact ⟨m, n, hm, hn, h.isLayering.forward m n hm hn u hu v hv harc, hu, hv⟩

end Valid

theorem mayShow_iff {j : Job} (h : j.Valid) {n : Node} {p : Plugin} {u : String} :
    j.mayShow n p u = true ↔ j.accepted.graph.Arc u n.id ∨
      ∃ m ∈ j.blueprint.nodes, m.id = u ∧ m.id ≠ n.id ∧
        ∃ need ∈ p.optionalNeeds, need.kind = m.kind := by
  simp only [mayShow, Bool.or_eq_true, List.contains_iff_mem, h.wellFormed.mem_predecessors_iff,
    List.any_eq_true, Bool.and_eq_true, decide_eq_true_eq, wants_iff, and_assoc]

/-! ## Calls of a run -/

theorem Call.exists_result_iff {cs : List Call} {rs : List NodeResult}
    (h : List.Forall₂ Call.Gives cs rs) {u : String} {o : Output} :
    (∃ x ∈ rs, x.nodeId = u ∧ x.output = o) ↔ ∃ d ∈ cs, d.node.id = u ∧ d.Returns o := by
  constructor
  · rintro ⟨x, hx, rfl, rfl⟩
    obtain ⟨d, hd, hgives⟩ := exists_mem_of_forall₂ h hx
    exact ⟨d, hd, hgives.nodeId_eq.symm, hgives.returns⟩
  · rintro ⟨d, hd, rfl, ho⟩
    obtain ⟨x, hx, hgives⟩ := exists_mem_of_forall₂ h.flip hd
    have hsame := outcome_eq_ok.mpr ho
    rw [outcome_eq_ok.mpr hgives.returns] at hsame
    exact ⟨x, hx, hgives.nodeId_eq, Except.ok.inj hsame⟩

/-- A source of a slot that is seen is listed there. -/
theorem mem_seen_sources {j : Job} {c : Call} {slot u : String} {o : Output}
    (hsource : u ∈ j.blueprint.sources c.node.id c.plugin slot)
    (ho : c.context.outputs.get? u = some o) :
    u ∈ (distinct (j.blueprint.sources c.node.id c.plugin slot)).filter c.context.outputs.has := by
  refine List.mem_filter.mpr ⟨mem_distinct.mpr hsource, ?_⟩
  exact Option.isSome_iff_exists.mpr ⟨o, ho⟩

section Calls
variable {j : Job} {css : List (List Call)} {ended : Except Failure (List NodeResult)}
  (hran : j.Ran [] j.accepted.plan.layers css ended)
include hran

theorem made_iff {c : Call} : j.Made (.ofCalls css.flatten) c ↔ c ∈ css.flatten := by
  have hmade : ∀ d ∈ css.flatten, j.Made (.ofCalls css.flatten) d := by
    intro d hd
    obtain ⟨seen, hcall⟩ := hran.exists_call hd
    obtain ⟨hnode, hplugin, config, -, hcontext⟩ := call_eq_ok.mp hcall
    refine ⟨List.mem_map_of_mem hd, ?_, hplugin⟩
    rw [hcontext]
    exact hnode
  refine ⟨fun hc => ?_, hmade c⟩
  obtain ⟨d, hd, hcontext⟩ := List.mem_map.mp hc.mem_calls
  have hnode : d.node = c.node := by
    have := (hmade d hd).node?_eq
    rw [hcontext, hc.node?_eq] at this
    exact (Option.some.inj this).symm
  have hplugin : d.plugin = c.plugin := by
    have := (hmade d hd).get?_eq
    rw [hnode, hc.get?_eq] at this
    exact (Option.some.inj this).symm
  have hsame : d = c := by
    obtain ⟨n, p, x⟩ := d
    cases hnode
    cases hplugin
    cases hcontext
    rfl
  exact hsame ▸ hd

theorem stored_iff {u : String} {o : Output} : j.Stored (.ofCalls css.flatten) u o ↔
    ∃ d ∈ css.flatten, d.node.id = u ∧ d.Returns o := by
  unfold Stored
  simp only [made_iff hran]

variable (h : j.Valid) {i : ℕ} (hi : i < css.length) {c : Call} (hc : c ∈ css[i])
include h hc

/-- The nodes before a call are those called in the layers before. -/
theorem before_iff {u : String} : j.accepted.plan.Before u c.node.id ↔
    ∃ d ∈ (css.take i).flatten, d.node.id = u := by
  have hids {m : ℕ} (hm : m < css.length) : ∃ hm' : m < j.accepted.plan.layers.length,
      j.accepted.plan.layers[m] = css[m].map (·.node.id) := by
    have hm' : m < (css.map (·.map (·.node.id))).length := by simpa using hm
    exact ⟨hm'.trans_le hran.isPrefix.length_le, by
      rw [← hran.isPrefix.getElem hm', List.getElem_map]⟩
  obtain ⟨hi', hlayer⟩ := hids hi
  have hv : c.node.id ∈ j.accepted.plan.layers[i] := hlayer ▸ List.mem_map_of_mem hc
  constructor
  · rintro ⟨m, n, hm, hn, hlt, hu, hvn⟩
    obtain rfl := h.layer_unique hi' hn hv hvn
    obtain ⟨_, hlayer'⟩ := hids (hlt.trans hi)
    rw [hlayer'] at hu
    obtain ⟨d, hd, rfl⟩ := List.mem_map.mp hu
    refine ⟨d, List.mem_flatten.mpr ⟨css[m], ?_, hd⟩, rfl⟩
    exact List.mem_take_iff_getElem.mpr ⟨m, by omega, rfl⟩
  · rintro ⟨d, hd, rfl⟩
    obtain ⟨ds, hds, hd⟩ := List.mem_flatten.mp hd
    obtain ⟨m, hm, rfl⟩ := List.mem_take_iff_getElem.mp hds
    have hlt : m < i := by omega
    obtain ⟨hm', hlayer'⟩ := hids (hlt.trans hi)
    have hu : d.node.id ∈ j.accepted.plan.layers[m] := hlayer' ▸ List.mem_map_of_mem hd
    exact ⟨m, i, hm', hi', hlt, hu, hv⟩

/-- The context of a call is made of the outputs of the layers before. -/
theorem exists_context : ∃ config finished,
    c.context = j.context c.node c.plugin config finished ∧
      ∀ u o, finished.get? u = some o ↔
        ∃ d ∈ (css.take i).flatten, d.node.id = u ∧ d.Returns o := by
  obtain ⟨rs, hgives, hcalls⟩ := hran.exists_finished hi
  obtain ⟨-, -, config, -, hcontext⟩ := call_eq_ok.mp (hcalls c hc)
  refine ⟨config, outputsOf rs, hcontext, fun u o => ?_⟩
  have hnodup : (rs.map (·.nodeId)).Nodup := by
    rw [Call.nodeIds_eq_of_gives hgives]
    exact ((List.take_sublist i css).flatten.map _).nodup (h.nodup_ids hran)
  rw [outputsOf, Table.get?_map_pair hnodup, Call.exists_result_iff hgives]

theorem mem_outputs_iff {u : String} {o : Output} : (u, o) ∈ c.context.outputs ↔
    j.Shows c u ∧ j.Stored (.ofCalls css.flatten) u o := by
  obtain ⟨config, finished, hcontext, hfinished⟩ := exists_context hran h hi hc
  have hbefore {u : String} := before_iff hran h hi hc (u := u)
  have hsub : (css.take i).flatten ⊆ css.flatten := (List.take_sublist i css).flatten.subset
  rw [hcontext]
  change (u, o) ∈ j.visible c.node c.plugin finished ↔ _
  rw [mem_visible, hfinished, mayShow_iff h, stored_iff hran, h.nodes_eq]
  constructor
  · rintro ⟨-, hshow, d, hd, rfl, ho⟩
    have hfirst := hbefore.mpr ⟨d, hd, rfl⟩
    refine ⟨⟨?_, ?_⟩, d, hsub hd, rfl, ho⟩
    · intro hself
      exact h.not_before_self _ (hself ▸ hfirst)
    · refine hshow.imp_right ?_
      rintro ⟨m, hm, hid, -, hneed⟩
      exact ⟨⟨m, hm, hid, hneed⟩, hfirst⟩
  · rintro ⟨⟨hne, hshow⟩, d, hd, rfl, ho⟩
    have hfirst : j.accepted.plan.Before d.node.id c.node.id :=
      hshow.elim h.before_of_arc And.right
    -- Each node is called once, so the call that stored the output is one of a layer before.
    obtain ⟨d', hd', hid⟩ := hbefore.mp hfirst
    obtain rfl := List.inj_on_of_nodup_map (h.nodup_ids hran) (hsub hd') hd hid
    refine ⟨?_, hshow.imp_right ?_, d', hd', rfl, ho⟩
    · rcases hshow with harc | ⟨⟨m, hm, hid, -⟩, -⟩
      · exact h.nodes_eq ▸ h.wellFormed.source_mem harc
      · exact List.mem_map.mpr ⟨m, hm, hid⟩
    · rintro ⟨⟨m, hm, hid, hneed⟩, -⟩
      exact ⟨m, hm, hid, hid ▸ hne, hneed⟩

theorem exists_stored {u : String} (hu : j.accepted.plan.Before u c.node.id) :
    ∃ o, j.Stored (.ofCalls css.flatten) u o := by
  obtain ⟨d, hd, rfl⟩ := (before_iff hran h hi hc).mp hu
  obtain ⟨rs, hgives, -⟩ := hran.exists_finished hi
  obtain ⟨o, ho⟩ := Call.returns_of_gives hgives d hd
  exact ⟨o, (stored_iff hran).mpr
    ⟨d, (List.take_sublist i css).flatten.subset hd, rfl, ho⟩⟩

theorem mem_keys_iff {u : String} : u ∈ c.context.outputs.keys ↔ j.Shows c u := by
  rw [Table.mem_keys]
  constructor
  · rintro ⟨o, ho⟩
    exact ((mem_outputs_iff hran h hi hc).mp ho).1
  · intro hshow
    obtain ⟨o, ho⟩ := exists_stored hran h hi hc (hshow.2.elim h.before_of_arc And.right)
    exact ⟨o, (mem_outputs_iff hran h hi hc).mpr ⟨hshow, ho⟩⟩

theorem keys_sublist : c.context.outputs.keys.Sublist j.blueprint.nodeIds := by
  obtain ⟨config, finished, hcontext, -⟩ := exists_context hran h hi hc
  rw [hcontext, ← h.nodes_eq]
  change (j.visible c.node c.plugin finished).keys.Sublist _
  rw [keys_visible]
  exact List.filter_sublist

/-- The slots of a call list its visible sources. -/
theorem lists_sources (slot : String) : c.context.Lists slot
    ((distinct (j.blueprint.sources c.node.id c.plugin slot)).filter c.context.outputs.has) := by
  obtain ⟨config, finished, hcontext, -⟩ := exists_context hran h hi hc
  have hself : c.context.outputs.has c.node.id = false := by
    rw [Bool.eq_false_iff, ne_eq, Table.has_iff, mem_keys_iff hran h hi hc]
    exact fun hshow => hshow.1 rfl
  have hinputs : c.context.inputs = j.inputs c.node c.plugin c.context.outputs := by
    rw [hcontext]
    rfl
  refine ⟨_, forall₂_filterMap fun u hu => ?_, ?_⟩
  · exact Option.isSome_iff_exists.mp (List.mem_filter.mp hu).2
  · rw [hinputs, get?_inputs hself]

/-- The output of an arc's source is stored and seen. -/
theorem exists_seen {u : String} (harc : j.accepted.graph.Arc u c.node.id) :
    ∃ o, j.Stored (.ofCalls css.flatten) u o ∧ c.context.outputs.get? u = some o := by
  have hbefore := h.before_of_arc harc
  have hshow : j.Shows c u := by
    refine ⟨?_, .inl harc⟩
    rintro rfl
    exact h.not_before_self _ hbefore
  obtain ⟨o, ho⟩ := exists_stored hran h hi hc hbefore
  have hkeys : c.context.outputs.keys.Nodup := (keys_sublist hran h hi hc).nodup h.nodup_nodeIds
  refine ⟨o, ho, (Table.get?_eq_some_iff hkeys).mpr ?_⟩
  exact (mem_outputs_iff hran h hi hc).mpr ⟨hshow, ho⟩

end Calls

theorem Valid.exists_mem_layer {j : Job} (h : j.Valid) {asked : Option Int} {x : Context}
    (hx : x ∈ (j.run asked).1.calls) : ∃ css ended, (j.run asked).1 = .ofCalls css.flatten ∧
      j.Ran [] j.accepted.plan.layers css ended ∧
        ∃ (i : ℕ) (hi : i < css.length), ∃ c ∈ css[i], c.context = x := by
  by_cases hworkers : 0 ≤ workers asked
  · obtain ⟨css, htrace, hran⟩ := h.exists_ran hworkers
    rw [htrace] at hx
    obtain ⟨c, hc, hcontext⟩ := List.mem_map.mp hx
    obtain ⟨cs, hcs, hmem⟩ := List.mem_flatten.mp hc
    obtain ⟨i, hi, rfl⟩ := List.mem_iff_getElem.mp hcs
    exact ⟨css, _, htrace, hran, i, hi, c, hmem, hcontext⟩
  · rw [run_of_neg (not_le.mp hworkers)] at hx
    cases hx

/-- What the call for a node is given when its blueprint is run. -/
theorem exists_called {b : Blueprint} {r : Registry} {id : String} {inputs : Table (List Output)}
    (hinputs : ((b.validated r).toOption.bind fun a =>
      ((Job.mk b r a {}).run.1.calls.find? fun x => x.nodeId = id).map (·.inputs)) = some inputs) :
    ∃ j : Job, j.blueprint = b ∧ j.registry = r ∧ j.Valid ∧
      ∃ x ∈ j.run.1.calls, x.nodeId = id ∧ x.inputs = inputs := by
  obtain ⟨a, ha, hcalls⟩ := Option.bind_eq_some_iff.mp hinputs
  obtain ⟨x, hx, hinputs⟩ := Option.map_eq_some_iff.mp hcalls
  have hid : x.nodeId = id := by simpa using List.find?_some hx
  exact ⟨⟨b, r, a, {}⟩, rfl, rfl, toOption_eq_some.mp ha, x, List.mem_of_find?_eq_some hx, hid,
    hinputs⟩

/-! ## Main statements -/

/-- Every call sees what it should, however its run ends. -/
theorem sees_producers {j : Job} (h : j.Valid) {asked : Option Int} {x : Context}
    (hx : x ∈ (j.run asked).1.calls) :
    ∃ c : Call, c.context = x ∧ j.Made (j.run asked).1 c ∧ j.Sees (j.run asked).1 c := by
  obtain ⟨css, ended, htrace, hran, i, hi, c, hmem, hcontext⟩ := h.exists_mem_layer hx
  have hc : c ∈ css.flatten := List.mem_flatten.mpr ⟨_, List.getElem_mem hi, hmem⟩
  rw [htrace]
  refine ⟨c, hcontext, (made_iff hran).mpr hc, ?_⟩
  constructor
  case sublist => exact keys_sublist hran h hi hmem
  case mem_keys_iff => exact fun u => mem_keys_iff hran h hi hmem
  case mem_outputs_iff => exact fun u o => mem_outputs_iff hran h hi hmem
  case nodup_slots =>
    obtain ⟨config, finished, hcontext, -⟩ := exists_context hran h hi hmem
    rw [hcontext]
    exact nodup_keys_inputs
  case slots =>
    intro slot
    refine ⟨_, lists_sources hran h hi hmem slot, (nodup_distinct _).filter _, fun u => ?_,
      (pairwise_idxOf_distinct _).filter _⟩
    rw [List.mem_filter, Table.has_iff, mem_keys_iff hran h hi hmem, mem_distinct,
      Blueprint.sources, List.mem_append, Blueprint.mem_edgeSources, Blueprint.mem_needSources,
      and_comm]

/-- A slot that a port, a required need and an optional one share. -/
theorem sees_producers_sharedSlot :
    let source (kind : String) : Plugin := {
      card := { id := kind, name := kind, field := .app }
      ports := [{ id := "out", direction := .output }]
      generate := fun n _ => { result := .ok (.output { files := [⟨n.id, kind, none⟩] }) } }
    let page : Plugin := {
      card := { id := "page", name := "Page", field := .app }
      ports := [{ id := "in", direction := .input }]
      needs := [⟨"style", false, [("out", "in"), ("theme", "theme")]⟩,
        ⟨"data", true, [("out", "in")]⟩]
      generate := fun _ _ => { result := .ok (.output {}) } }
    let r : Registry := .ofPlugins [source "data", source "style", page]
    let b : Blueprint := {
      id := "demo"
      nodes := [⟨"page", "page", [], none⟩, ⟨"first", "data", [], none⟩,
        ⟨"second", "data", [], none⟩, ⟨"dark", "style", [], none⟩]
      edges := [⟨"e", ⟨"second", "out"⟩, ⟨"page", "in"⟩⟩] }
    let output (id kind : String) : Output := { files := [⟨id, kind, none⟩] }
    ∃ j : Job, j.blueprint = b ∧ j.registry = r ∧ j.Valid ∧
      ∃ x ∈ j.run.1.calls, x.nodeId = "page" ∧
        x.inputs = [
          ("in", [output "second" "data", output "dark" "style", output "first" "data"]),
          ("theme", [output "dark" "style"])] ∧
        ∃ c : Call, c.context = x ∧ j.Made j.run.1 c ∧ j.Sees j.run.1 c := by
  intro source page r b output
  have hinputs : ((b.validated r).toOption.bind fun a =>
      ((Job.mk b r a {}).run.1.calls.find? fun x => x.nodeId = "page").map (·.inputs)) = some [
        ("in", [output "second" "data", output "dark" "style", output "first" "data"]),
        ("theme", [output "dark" "style"])] := by
    decide +kernel
  obtain ⟨j, hb, hr, hvalid, x, hx, hid, hinputs⟩ := exists_called hinputs
  exact ⟨j, hb, hr, hvalid, x, hx, hid, hinputs, sees_producers hvalid hx⟩

/-- Every call has all that its plugin requires, however its run ends. -/
theorem supplied_required {j : Job} (h : j.Valid) {asked : Option Int} {x : Context}
    (hx : x ∈ (j.run asked).1.calls) :
    ∃ c : Call, c.context = x ∧ j.Made (j.run asked).1 c ∧ j.Supplied (j.run asked).1 c := by
  obtain ⟨css, ended, htrace, hran, i, hi, c, hmem, hcontext⟩ := h.exists_mem_layer hx
  have hc : c ∈ css.flatten := List.mem_flatten.mpr ⟨_, List.getElem_mem hi, hmem⟩
  have hmade := (made_iff hran).mpr hc
  obtain ⟨hn, -⟩ := Blueprint.id_of_node? hmade.node?_eq
  have hplugin := hmade.get?_eq
  rw [htrace]
  refine ⟨c, hcontext, hmade, ?_⟩
  constructor
  case inputs =>
    intro q hq hrequired
    obtain ⟨e, he, htarget⟩ := h.exists_edge hn hplugin hq hrequired
    have harc : j.accepted.graph.Arc e.source.node c.node.id :=
      h.arc_iff.mpr (.inl ⟨e, he, rfl, by rw [htarget]⟩)
    obtain ⟨o, -, ho⟩ := exists_seen hran h hi hmem harc
    have hsource : e.source.node ∈ j.blueprint.sources c.node.id c.plugin q.id :=
      List.mem_append_left _ (Blueprint.mem_edgeSources.mpr ⟨e, he, htarget, rfl⟩)
    have hlisted := mem_seen_sources hsource ho
    have hlists := lists_sources hran h hi hmem q.id
    obtain ⟨u, us, hus⟩ := List.exists_cons_of_ne_nil (List.ne_nil_of_mem hlisted)
    rw [hus] at hlists
    obtain ⟨first, hfirst, hinput⟩ := hlists.input
    have hstored := ((mem_outputs_iff hran h hi hmem).mp (Table.mem_of_get? hfirst)).2
    exact ⟨u, us, first, hlists, hstored, hinput⟩
  case needs =>
    intro need hneed m hm hkind hne
    have harc : j.accepted.graph.Arc m.id c.node.id :=
      h.arc_iff.mpr (.inr ⟨c.node, hn, c.plugin, need, hneed, m, hm, hplugin, hkind, hne, rfl, rfl⟩)
    obtain ⟨o, hstored, ho⟩ := exists_seen hran h hi hmem harc
    refine ⟨o, hstored, ho, fun s hs => ⟨_, lists_sources hran h hi hmem s.2, ?_⟩⟩
    refine mem_seen_sources (List.mem_append_right _ ?_) ho
    exact Blueprint.mem_needSources.mpr
      ⟨need, (List.mem_filter.mp hneed).1, ⟨s, hs, rfl⟩, m, hm, hkind, rfl⟩

/-- A node that depends on the nodes of its own kind's need, and on one of them by an edge. -/
theorem supplied_required_ownKind :
    let model : Plugin := {
      card := { id := "model", name := "Model", field := .app }
      ports := [{ id := "out", direction := .output }]
      generate := fun n _ => { result := .ok (.output { files := [⟨n.id, "", none⟩] }) } }
    let view : Plugin := {
      card := { id := "view", name := "View", field := .app }
      ports := [{ id := "main", direction := .input, required := true }]
      needs := [⟨"model", true, [("out", "all")]⟩, ⟨"view", true, [("page", "pages")]⟩]
      generate := fun _ _ => { result := .error (.raised ⟨"ValueError", "no view"⟩) } }
    let r : Registry := .ofPlugins [model, view]
    let b : Blueprint := {
      id := "demo"
      nodes := [⟨"v", "view", [], none⟩, ⟨"m", "model", [], none⟩, ⟨"n", "model", [], none⟩]
      edges := [⟨"e", ⟨"n", "out"⟩, ⟨"v", "main"⟩⟩] }
    let output (id : String) : Output := { files := [⟨id, "", none⟩] }
    ∃ j : Job, j.blueprint = b ∧ j.registry = r ∧ j.Valid ∧
      ∃ x ∈ j.run.1.calls, x.nodeId = "v" ∧
        x.inputs = [("main", [output "n"]), ("all", [output "m", output "n"])] ∧
        ∃ c : Call, c.context = x ∧ j.Made j.run.1 c ∧ j.Supplied j.run.1 c := by
  intro model view r b output
  have hinputs : ((b.validated r).toOption.bind fun a =>
      ((Job.mk b r a {}).run.1.calls.find? fun x => x.nodeId = "v").map (·.inputs)) =
        some [("main", [output "n"]), ("all", [output "m", output "n"])] := by
    decide +kernel
  obtain ⟨j, hb, hr, hvalid, x, hx, hid, hinputs⟩ := exists_called hinputs
  exact ⟨j, hb, hr, hvalid, x, hx, hid, hinputs, supplied_required hvalid hx⟩

end Job
end ProjectComposer
