import ProjectComposer.Proofs.Validation.Wiring

/-!
The calls of a run, whichever way it ends. The layers are called in turn, every node of a layer
once and on the outputs of the calls in the layers before it. The first layer in which a call comes
to no output is the last one called. If all such calls of it are reported, the fault names them in
the order of the layer; otherwise the run never ends or ends with the first that is not.
-/
namespace ProjectComposer
set_option autoImplicit false

/-! ## Calls without an output -/

namespace Job.Call
variable {c : Call}

/-- The generator of a call raised an error, or what it returned is no output, and this is
reported. -/
structure Fails (c : Call) (f : PluginFailure) : Prop where
  nodeId_eq : f.nodeId = c.node.id
  pluginId_eq : f.pluginId = c.plugin.id
  cause : (∃ e, c.generated.result = .error (.raised e) ∧ f.cause = .raised e) ∨
    ∃ returned, c.generated.result = .ok returned ∧ accept returned = .error (.reported f.cause)

/-- A call comes to no output, and this is not reported. -/
inductive Escapes (c : Call) : Failure → Prop
  | untold {e : Raised} (result : c.generated.result = .error (.untold e)) : Escapes c (.raised e)
  | cancelled (result : c.generated.result = .error .cancelled) : Escapes c (.raised .cancelled)
  | unheard (result : c.generated.result = .error .unheard) : Escapes c .unending
  | unchecked {e : Raised} (result : c.generated.result = .ok (.unchecked e)) :
      Escapes c (.raised e)

theorem outcome_eq_reported {cause : Cause} : c.outcome = .error (.reported cause) ↔
    (∃ e, c.generated.result = .error (.raised e) ∧ cause = .raised e) ∨
      ∃ returned, c.generated.result = .ok returned ∧
        accept returned = .error (.reported cause) := by
  simp only [outcome, bind_eq_error, mapError_eq_error, mapError_eq_ok]
  refine or_congr_left ⟨?_, ?_⟩
  · rintro ⟨a, ha, hmishap⟩
    cases a with
    | raised e => exact ⟨e, ha, (Mishap.reported.inj hmishap).symm⟩
    | untold e => cases hmishap
    | cancelled => cases hmishap
    | unheard => cases hmishap
  · rintro ⟨e, he, rfl⟩
    exact ⟨.raised e, he, rfl⟩

theorem accept_eq_escapes {returned : Returned} {f : Failure} :
    accept returned = .error (.escapes f) ↔ ∃ e, returned = .unchecked e ∧ f = .raised e := by
  cases returned with
  | output o => simp [accept]
  | object m => simp [accept, mapError_eq_error]
  | other type => simp [accept]
  | unchecked e => simp [accept, eq_comm]

theorem outcome_eq_escapes {f : Failure} : c.outcome = .error (.escapes f) ↔ c.Escapes f := by
  simp only [outcome, bind_eq_error, mapError_eq_error, mapError_eq_ok, accept_eq_escapes]
  constructor
  · rintro (⟨a, ha, hmishap⟩ | ⟨_, hreturned, e, rfl, rfl⟩)
    · cases a with
      | raised e => cases hmishap
      | untold e => exact Mishap.escapes.inj hmishap ▸ .untold ha
      | cancelled => exact Mishap.escapes.inj hmishap ▸ .cancelled ha
      | unheard => exact Mishap.escapes.inj hmishap ▸ .unheard ha
    · exact .unchecked hreturned
  · intro h
    cases h with
    | untold h => exact .inl ⟨_, h, rfl⟩
    | cancelled h => exact .inl ⟨_, h, rfl⟩
    | unheard h => exact .inl ⟨_, h, rfl⟩
    | unchecked h => exact .inr ⟨_, h, _, rfl, rfl⟩

theorem ofCall_eq_failed {f : PluginFailure} :
    NodeOutcome.ofCall (.ok c) = .failed f ↔ c.Fails f := by
  obtain ⟨nodeId, pluginId, cause⟩ := f
  have hfails : c.Fails ⟨nodeId, pluginId, cause⟩ ↔ nodeId = c.node.id ∧ pluginId = c.plugin.id ∧
      c.outcome = .error (.reported cause) := by
    rw [outcome_eq_reported]
    exact ⟨fun h => ⟨h.nodeId_eq, h.pluginId_eq, h.cause⟩, fun h => ⟨h.1, h.2.1, h.2.2⟩⟩
  rw [hfails, NodeOutcome.ofCall]
  split
  · next h => simp [h]
  · next h => simp [h, eq_comm]
  · next h => simp [h]

theorem ofCall_eq_escaped {f : Failure} :
    NodeOutcome.ofCall (.ok c) = .escaped f ↔ c.Escapes f := by
  rw [← outcome_eq_escapes, NodeOutcome.ofCall]
  split
  · next h => simp [h]
  · next h => simp [h]
  · next h => simp [h]

/-- Why a call failed, if it did. -/
def failure? (c : Call) : Option PluginFailure :=
  (NodeOutcome.ofCall (.ok c)).failure?

theorem failure?_eq_some {f : PluginFailure} : c.failure? = some f ↔ c.Fails f := by
  rw [← ofCall_eq_failed, failure?]
  cases NodeOutcome.ofCall (.ok c) <;> simp [NodeOutcome.failure?]

theorem escape?_eq_some {f : Failure} :
    (NodeOutcome.ofCall (.ok c)).escape? = some f ↔ c.Escapes f := by
  rw [← ofCall_eq_escaped]
  cases NodeOutcome.ofCall (.ok c) <;> simp [NodeOutcome.escape?]

/-- There are three ways for a call to end. -/
theorem returns_or_fails_or_escapes (c : Call) :
    (∃ o, c.Returns o) ∨ (∃ f, c.Fails f) ∨ ∃ f, c.Escapes f := by
  cases houtcome : NodeOutcome.ofCall (.ok c) with
  | done x =>
    obtain ⟨_, hc, hgives⟩ := NodeOutcome.ofCall_eq_done.mp houtcome
    obtain rfl := Except.ok.inj hc
    exact .inl ⟨_, hgives.returns⟩
  | failed f => exact .inr (.inl ⟨f, ofCall_eq_failed.mp houtcome⟩)
  | escaped f => exact .inr (.inr ⟨f, ofCall_eq_escaped.mp houtcome⟩)

theorem Returns.not_fails {o : Output} (h : c.Returns o) (f : PluginFailure) : ¬c.Fails f := by
  intro hf
  have hdone : NodeOutcome.ofCall (.ok c) = .done ⟨c.node.id, c.node.kind, o⟩ :=
    NodeOutcome.ofCall_eq_done.mpr ⟨c, rfl, rfl, rfl, h⟩
  rw [ofCall_eq_failed.mpr hf] at hdone
  cases hdone

theorem Returns.not_escapes {o : Output} (h : c.Returns o) (f : Failure) : ¬c.Escapes f := by
  intro hf
  have hdone : NodeOutcome.ofCall (.ok c) = .done ⟨c.node.id, c.node.kind, o⟩ :=
    NodeOutcome.ofCall_eq_done.mpr ⟨c, rfl, rfl, rfl, h⟩
  rw [ofCall_eq_escaped.mpr hf] at hdone
  cases hdone

/-! ## The calls of a layer -/

/-- The failures of calls, in order. -/
def failures (cs : List Call) : List PluginFailure :=
  cs.filterMap failure?

/-- What ends calls unreported. -/
def breach (cs : List Call) : Option Failure :=
  NodeOutcome.breach ((cs.map .ok).map .ofCall)

/-- What a layer ends with where calls of it escape: a wait without end if there is one, and the
first escape otherwise. -/
inductive Breaks (cs : List Call) : Failure → Prop
  | unending {c : Call} (mem : c ∈ cs) (escapes : c.Escapes .unending) : Breaks cs .unending
  | first {before after : List Call} {c : Call} {f : Failure} (split : cs = before ++ c :: after)
      (escapes : c.Escapes f) (none_before : ∀ d ∈ before, ∀ g, ¬d.Escapes g)
      (ending : ∀ d ∈ cs, ¬d.Escapes .unending) : Breaks cs f

variable {cs : List Call}

theorem breach_eq_none : breach cs = none ↔ ∀ c ∈ cs, ∀ f, ¬c.Escapes f := by
  rw [breach, NodeOutcome.breach_eq_none, List.map_map, List.forall_mem_map]
  simp only [Function.comp_apply, Option.eq_none_iff_forall_ne_some, ne_eq, escape?_eq_some]

theorem breach_of_returns (h : ∀ c ∈ cs, ∃ o, c.Returns o) : breach cs = none := by
  refine breach_eq_none.mpr fun c hc => ?_
  obtain ⟨o, ho⟩ := h c hc
  exact ho.not_escapes

theorem breaks_of_breach {f : Failure} (h : breach cs = some f) : Breaks cs f := by
  rw [breach, NodeOutcome.breach, List.map_map] at h
  split at h
  · next hunending =>
    obtain ⟨_, ho, hescapes⟩ := List.mem_filterMap.mp hunending
    obtain ⟨c, hc, rfl⟩ := List.mem_map.mp ho
    exact Option.some.inj h ▸ .unending hc (escape?_eq_some.mp hescapes)
  · next hending =>
    rw [List.findSome?_map, List.findSome?_eq_some_iff] at h
    obtain ⟨before, c, after, rfl, hc, hbefore⟩ := h
    refine .first rfl (escape?_eq_some.mp hc) (fun d hd g hg => ?_) fun d hd hg => hending ?_
    · have hnone := hbefore d hd
      rw [Function.comp_apply, Function.comp_apply, escape?_eq_some.mpr hg] at hnone
      cases hnone
    · exact List.mem_filterMap.mpr ⟨_, List.mem_map_of_mem hd, escape?_eq_some.mpr hg⟩

theorem failures_eq_nil (h : breach cs = none) :
    failures cs = [] ↔ ∀ c ∈ cs, ∃ o, c.Returns o := by
  simp only [failures, List.filterMap_eq_nil_iff, Option.eq_none_iff_forall_ne_some, ne_eq,
    failure?_eq_some]
  refine forall₂_congr fun c hc => ⟨fun hfails => ?_, fun ⟨o, ho⟩ => ho.not_fails⟩
  rcases c.returns_or_fails_or_escapes with hreturns | ⟨f, hf⟩ | ⟨f, hf⟩
  · exact hreturns
  · exact absurd hf (hfails f)
  · exact absurd hf (breach_eq_none.mp h c hc f)

theorem exists_gives {cs : List Call} (h : ∀ c ∈ cs, ∃ o, c.Returns o) :
    ∃ rs, List.Forall₂ Gives cs rs := by
  refine exists_forall₂ fun c hc => ?_
  obtain ⟨o, ho⟩ := h c hc
  exact ⟨⟨c.node.id, c.node.kind, o⟩, rfl, rfl, ho⟩

theorem returns_of_gives {cs : List Call} {rs : List NodeResult} (h : List.Forall₂ Gives cs rs) :
    ∀ c ∈ cs, ∃ o, c.Returns o := by
  intro c hc
  obtain ⟨x, -, hx⟩ := exists_mem_of_forall₂ h.flip hc
  exact ⟨_, hx.returns⟩

end Job.Call

/-! ## Layers without results -/

namespace Job
variable {j : Job} {finished : Table Output} {layer : List String} {cs : List Call}

theorem runLayer_of_breach
    (hcalls : List.Forall₂ (fun id c => j.call finished id = .ok c) layer cs) {f : Failure}
    (hbreach : Call.breach cs = some f) :
    j.runLayer finished layer = (.ofCalls cs, .error f) := by
  rw [Call.breach] at hbreach
  simp only [runLayer, calls_eq_map_ok hcalls, callsMade_map_ok, NodeOutcome.settle, hbreach]

theorem runLayer_of_failures
    (hcalls : List.Forall₂ (fun id c => j.call finished id = .ok c) layer cs)
    (hbreach : Call.breach cs = none) {first : PluginFailure} {siblings : List PluginFailure}
    (hfailures : Call.failures cs = first :: siblings) :
    j.runLayer finished layer =
      (.ofCalls cs, .error (.fault (.ofKind (.plugin first siblings)))) := by
  have hfailed : ((cs.map .ok).map NodeOutcome.ofCall).filterMap NodeOutcome.failure? =
      first :: siblings := by
    rw [← hfailures, List.map_map, List.filterMap_map]
    rfl
  rw [Call.breach] at hbreach
  simp only [runLayer, calls_eq_map_ok hcalls, callsMade_map_ok, NodeOutcome.settle, hbreach,
    hfailed]

/-! ## Runs -/

/-- The calls of a run, layer by layer, and what it ends with. -/
inductive Ran (j : Job) : Table Output → List (List String) → List (List Call) →
    Except Failure (List NodeResult) → Prop
  | nil {finished : Table Output} : Ran j finished [] [] (.ok [])
  | broken {finished : Table Output} {layer : List String} {more : List (List String)}
      {cs : List Call} {f : Failure}
      (calls : List.Forall₂ (fun id c => j.call finished id = .ok c) layer cs)
      (breach : Call.breach cs = some f) : Ran j finished (layer :: more) [cs] (.error f)
  | failed {finished : Table Output} {layer : List String} {more : List (List String)}
      {cs : List Call} {first : PluginFailure} {siblings : List PluginFailure}
      (calls : List.Forall₂ (fun id c => j.call finished id = .ok c) layer cs)
      (breach : Call.breach cs = none) (failures : Call.failures cs = first :: siblings) :
      Ran j finished (layer :: more) [cs] (.error (.fault (.ofKind (.plugin first siblings))))
  | cons {finished : Table Output} {layer : List String} {more : List (List String)}
      {cs : List Call} {later : List (List Call)} {rs : List NodeResult}
      {ended : Except Failure (List NodeResult)} (here : j.LayerRun finished layer cs rs)
      (after : Ran j (finished ++ outputsOf rs) more later ended) :
      Ran j finished (layer :: more) (cs :: later) (ended.map (rs ++ ·))

/-- Where every call finds what it looks up, a run is such calls. -/
theorem exists_ran {layers : List (List String)}
    (h : ∀ id ∈ layers.flatten, ∀ seen, ∃ c, j.call seen id = .ok c) :
    ∃ css, (j.runLayers finished layers).1 = .ofCalls css.flatten ∧
      j.Ran finished layers css (j.runLayers finished layers).2 := by
  induction layers generalizing finished with
  | nil => exact ⟨[], rfl, .nil⟩
  | cons layer more ih =>
    rw [List.flatten_cons, List.forall_mem_append] at h
    have hcalls : ∃ cs, List.Forall₂ (fun id c => j.call finished id = .ok c) layer cs :=
      exists_forall₂ fun id hid => h.1 id hid finished
    obtain ⟨cs, hcs⟩ := hcalls
    cases hbreach : Call.breach cs with
    | some f =>
      rw [runLayers_of_error (runLayer_of_breach hcs hbreach)]
      exact ⟨[cs], by simp, .broken hcs hbreach⟩
    | none =>
      cases hfailures : Call.failures cs with
      | cons first siblings =>
        rw [runLayers_of_error (runLayer_of_failures hcs hbreach hfailures)]
        exact ⟨[cs], by simp, .failed hcs hbreach hfailures⟩
      | nil =>
        obtain ⟨rs, hrs⟩ := Call.exists_gives ((Call.failures_eq_nil hbreach).mp hfailures)
        have here : j.LayerRun finished layer cs rs := ⟨hcs, hrs⟩
        obtain ⟨later, htrace, hafter⟩ := @ih (finished ++ outputsOf rs) h.2
        rw [runLayers_of_ok (runLayer_eq_ok.mpr ⟨cs, rfl, here⟩)]
        refine ⟨cs :: later, ?_, .cons here hafter⟩
        rw [List.flatten_cons, ofCalls_append, ← htrace]

namespace Ran
variable {layers : List (List String)} {css : List (List Call)}
  {ended : Except Failure (List NodeResult)}

/-- Layers are called in turn, every node of a layer once. -/
theorem isPrefix (h : j.Ran finished layers css ended) :
    css.map (·.map (·.node.id)) <+: layers := by
  have hids {finished : Table Output} {layer : List String} {cs : List Call}
      (hcalls : List.Forall₂ (fun id c => j.call finished id = .ok c) layer cs) :
      cs.map (·.node.id) = layer := by
    rw [← List.forall₂_eq_eq_eq, List.forall₂_map_left_iff]
    refine hcalls.flip.imp fun c id hcall => ?_
    exact (Blueprint.id_of_node? (call_eq_ok.mp hcall).1).2
  induction h with
  | nil => exact List.prefix_rfl
  | broken hcalls _ | failed hcalls _ _ =>
    rw [List.map_singleton, hids hcalls]
    exact List.prefix_append [_] _
  | cons here _ ih =>
    rw [List.map_cons, hids here.calls]
    exact (List.prefix_cons_inj _).mpr ih

/-- The calls of a layer are made on the outputs of the calls in the layers before. -/
theorem exists_finished (h : j.Ran finished layers css ended) {i : ℕ} (hi : i < css.length) :
    ∃ rs, List.Forall₂ Call.Gives (css.take i).flatten rs ∧
      ∀ c ∈ css[i], j.call (finished ++ outputsOf rs) c.node.id = .ok c := by
  have hself {finished : Table Output} {layer : List String} {cs : List Call}
      (hcalls : List.Forall₂ (fun id c => j.call finished id = .ok c) layer cs) :
      ∀ c ∈ cs, j.call (finished ++ outputsOf []) c.node.id = .ok c := by
    intro c hc
    obtain ⟨id, -, hcall⟩ := exists_mem_of_forall₂ hcalls hc
    rw [(Blueprint.id_of_node? (call_eq_ok.mp hcall).1).2]
    simpa [outputsOf] using hcall
  induction h generalizing i with
  | nil => cases hi
  | broken hcalls _ | failed hcalls _ _ =>
    obtain rfl : i = 0 := by simpa using hi
    exact ⟨[], .nil, hself hcalls⟩
  | cons here _ ih =>
    cases i with
    | zero => exact ⟨[], .nil, hself here.calls⟩
    | succ i =>
      obtain ⟨rs, hrs, hcs⟩ := ih (Nat.lt_of_succ_lt_succ hi)
      refine ⟨_ ++ rs, List.rel_append here.results hrs, ?_⟩
      simpa [outputsOf] using hcs

theorem exists_call (h : j.Ran finished layers css ended) {c : Call} (hc : c ∈ css.flatten) :
    ∃ seen, j.call seen c.node.id = .ok c := by
  obtain ⟨cs, hcs, hccs⟩ := List.mem_flatten.mp hc
  obtain ⟨i, hi, rfl⟩ := List.mem_iff_getElem.mp hcs
  obtain ⟨rs, -, hcalls⟩ := h.exists_finished hi
  exact ⟨_, hcalls c hccs⟩

theorem of_returns (h : j.Ran finished layers css ended)
    (hreturns : ∀ c ∈ css.flatten, ∃ o, c.Returns o) :
    css.length = layers.length ∧ ∃ rs, ended = .ok rs ∧ List.Forall₂ Call.Gives css.flatten rs := by
  induction h with
  | nil => exact ⟨rfl, [], rfl, .nil⟩
  | broken _ hbreach =>
    rw [List.flatten_singleton] at hreturns
    cases hbreach.symm.trans (Call.breach_of_returns hreturns)
  | failed _ hbreach hfailures =>
    rw [List.flatten_singleton, ← Call.failures_eq_nil hbreach, hfailures] at hreturns
    cases hreturns
  | cons here _ ih =>
    rw [List.flatten_cons, List.forall_mem_append] at hreturns
    obtain ⟨hlength, rest, rfl, hrest⟩ := ih hreturns.2
    refine ⟨by simp [hlength], _, rfl, List.rel_append here.results hrest⟩

theorem returns_of_ok {rs : List NodeResult} (h : j.Ran finished layers css (.ok rs)) :
    ∀ c ∈ css.flatten, ∃ o, c.Returns o := by
  generalize hended : Except.ok rs = ended at h
  induction h generalizing rs with
  | nil => simp
  | broken _ _ | failed _ _ _ => cases hended
  | cons here _ ih =>
    obtain ⟨rest, hrest, -⟩ := map_eq_ok.mp hended.symm
    rw [List.flatten_cons, List.forall_mem_append]
    exact ⟨Call.returns_of_gives here.results, ih hrest.symm⟩

/-- All calls before the last layer gave outputs. -/
theorem returns_of_lt (h : j.Ran finished layers css ended) {i : ℕ} (hi : i + 1 < css.length) :
    ∀ c ∈ css[i], ∃ o, c.Returns o := by
  induction h generalizing i with
  | nil => cases hi
  | broken _ _ | failed _ _ _ => simp at hi
  | cons here _ ih =>
    cases i with
    | zero => exact Call.returns_of_gives here.results
    | succ i => exact ih (Nat.lt_of_succ_lt_succ hi)

/-- No layer is called after one with a call that has no output. -/
theorem length_eq (h : j.Ran finished layers css ended) {i : ℕ} (hi : i < css.length) {c : Call}
    (hc : c ∈ css[i]) (hnone : ¬∃ o, c.Returns o) : css.length = i + 1 := by
  by_contra hne
  exact hnone (h.returns_of_lt (by omega) c hc)

theorem of_breach (h : j.Ran finished layers css ended) {i : ℕ} (hi : i < css.length) {f : Failure}
    (hbreach : Call.breach css[i] = some f) : ended = .error f := by
  induction h generalizing i with
  | nil => cases hi
  | broken _ hbroken =>
    obtain rfl : i = 0 := by simpa using hi
    obtain rfl := Option.some.inj (hbroken.symm.trans hbreach)
    rfl
  | failed _ hnone _ =>
    obtain rfl : i = 0 := by simpa using hi
    cases hnone.symm.trans hbreach
  | cons here _ ih =>
    cases i with
    | zero =>
      cases hbreach.symm.trans (Call.breach_of_returns (Call.returns_of_gives here.results))
    | succ i =>
      rw [ih (Nat.lt_of_succ_lt_succ hi) hbreach]
      rfl

theorem of_failures (h : j.Ran finished layers css ended) {i : ℕ} (hi : i < css.length)
    (hbreach : Call.breach css[i] = none) (hfails : ∃ c ∈ css[i], ∃ f, c.Fails f) :
    ∃ first siblings, Call.failures css[i] = first :: siblings ∧
      ended = .error (.fault (.ofKind (.plugin first siblings))) := by
  induction h generalizing i with
  | nil => cases hi
  | broken _ hbroken =>
    obtain rfl : i = 0 := by simpa using hi
    cases hbreach.symm.trans hbroken
  | failed _ _ hfailures =>
    obtain rfl : i = 0 := by simpa using hi
    exact ⟨_, _, hfailures, rfl⟩
  | cons here _ ih =>
    cases i with
    | zero =>
      obtain ⟨c, hc, f, hf⟩ := hfails
      obtain ⟨o, ho⟩ := Call.returns_of_gives here.results c hc
      exact absurd hf (ho.not_fails f)
    | succ i =>
      obtain ⟨first, siblings, hfailures, rfl⟩ := ih (Nat.lt_of_succ_lt_succ hi) hbreach hfails
      exact ⟨first, siblings, hfailures, rfl⟩

end Ran

/-! ## Accepted blueprints -/

theorem run_of_neg {asked : Option Int} (h : workers asked < 0) :
    j.run asked = ({}, .error .workers) := by
  rw [run, if_pos h]

namespace Valid
variable {css : List (List Call)} {ended : Except Failure (List NodeResult)}

theorem exists_ran (h : j.Valid) {asked : Option Int} (hworkers : 0 ≤ workers asked) :
    ∃ css, (j.run asked).1 = .ofCalls css.flatten ∧
      j.Ran [] j.accepted.plan.layers css (j.run asked).2 := by
  rw [run, if_neg (not_lt.mpr hworkers)]
  exact Job.exists_ran fun id hid seen => h.exists_call (h.perm_order.mem_iff.mp hid) seen

theorem nodup_ids (h : j.Valid) (hran : j.Ran [] j.accepted.plan.layers css ended) :
    (css.flatten.map (·.node.id)).Nodup := by
  obtain ⟨rest, hlayers⟩ := hran.isPrefix
  have horder := h.nodup_order
  rw [Plan.order, ← hlayers, List.flatten_append] at horder
  rw [List.map_flatten]
  exact (List.nodup_append.mp horder).1

end Valid
end Job
end ProjectComposer
