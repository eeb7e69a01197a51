import ProjectComposer.Execution.Run
import ProjectComposer.Proofs.Except

/-!
Runs that end with results. Every node of a layer is called once, on what the layers before it gave,
and every call gives the result in its place. A whole run is complete if each of its layers is, so
its calls and results come one for each node, in the order of the plan.
-/
namespace ProjectComposer
set_option autoImplicit false

/-! ## Calls -/

namespace Job.Call
variable {c : Call}

/-- The generator of a call returned an output. -/
def Returns (c : Call) (o : Output) : Prop :=
  ∃ returned, c.generated.result = .ok returned ∧ accept returned = .ok o

theorem outcome_eq_ok {o : Output} : c.outcome = .ok o ↔ c.Returns o := by
  simp only [outcome, Returns, bind_eq_ok, mapError_eq_ok]

/-- The result of a call whose generator returned an output. -/
structure Gives (c : Call) (x : NodeResult) : Prop where
  nodeId_eq : x.nodeId = c.node.id
  nodeKind_eq : x.nodeKind = c.node.kind
  returns : c.Returns x.output

theorem nodeIds_eq_of_gives {cs : List Call} {rs : List NodeResult} (h : List.Forall₂ Gives cs rs) :
    rs.map (·.nodeId) = cs.map (·.node.id) := by
  rw [← List.forall₂_eq_eq_eq, List.forall₂_map_left_iff, List.forall₂_map_right_iff]
  exact h.flip.imp fun _ _ hgives => hgives.nodeId_eq

end Job.Call

theorem Registry.find_eq_ok {r : Registry} {kind : String} {p : Plugin} :
    r.find kind = .ok p ↔ r.get? kind = some p := by
  unfold find
  cases r.get? kind with
  | none => simp
  | some q => simp

theorem Blueprint.id_of_node? {b : Blueprint} {id : String} {n : Node} (h : b.node? id = some n) :
    n ∈ b.nodes ∧ n.id = id := by
  have hmem := List.mem_of_find?_eq_some h
  have hid := List.find?_some h
  exact ⟨List.mem_reverse.mp hmem, of_decide_eq_true hid⟩

namespace Job
variable {j : Job} {finished : Table Output}

theorem call_eq_ok {id : String} {c : Call} : j.call finished id = .ok c ↔
    j.blueprint.node? id = some c.node ∧ j.registry.get? c.node.kind = some c.plugin ∧
      ∃ config, j.accepted.configs.get? id = some config ∧
        c.context = j.context c.node c.plugin config finished := by
  unfold call
  cases hnode : j.blueprint.node? id with
  | none => simp
  | some n =>
    simp only [bind_eq_ok, Registry.find_eq_ok, Option.some.injEq]
    constructor
    · rintro ⟨p, hp, h⟩
      cases hconfig : j.accepted.configs.get? id with
      | none =>
        rw [hconfig] at h
        cases h
      | some config =>
        rw [hconfig] at h
        obtain rfl := pure_eq_ok.mp h
        exact ⟨rfl, hp, config, rfl, rfl⟩
    · rintro ⟨rfl, hp, config, hconfig, hcontext⟩
      refine ⟨c.plugin, hp, ?_⟩
      rw [hconfig]
      exact pure_eq_ok.mpr (by rw [← hcontext])

/-! ## Layers -/

/-- The calls and the results of a layer whose nodes all ran to their end. -/
structure LayerRun (j : Job) (finished : Table Output) (layer : List String) (cs : List Call)
    (rs : List NodeResult) : Prop where
  calls : List.Forall₂ (fun id c => j.call finished id = .ok c) layer cs
  results : List.Forall₂ Call.Gives cs rs

end Job

namespace NodeOutcome

theorem ofCall_eq_done {r : Except Failure Job.Call} {x : NodeResult} :
    ofCall r = .done x ↔ ∃ c, r = .ok c ∧ c.Gives x := by
  cases r with
  | error f => simp [ofCall]
  | ok c =>
    unfold ofCall
    simp only [Except.ok.injEq, exists_eq_left']
    cases houtcome : c.outcome with
    | error mishap =>
      refine iff_of_false ?_ fun h => ?_
      · cases mishap <;> simp
      · rw [Job.Call.outcome_eq_ok.mpr h.returns] at houtcome
        cases houtcome
    | ok o =>
      have hreturns := Job.Call.outcome_eq_ok.mp houtcome
      constructor
      · intro h
        cases h
        exact ⟨rfl, rfl, hreturns⟩
      · rintro ⟨hid, hkind, h⟩
        rw [Job.Call.outcome_eq_ok.mpr h] at houtcome
        cases houtcome
        cases x
        cases hid
        cases hkind
        rfl

theorem breach_eq_none {os : List NodeOutcome} : breach os = none ↔ ∀ o ∈ os, o.escape? = none := by
  unfold breach
  split
  · next h =>
    obtain ⟨o, ho, hescape⟩ := List.mem_filterMap.mp h
    refine iff_of_false (by simp) fun hnone => ?_
    rw [hnone o ho] at hescape
    cases hescape
  · exact List.findSome?_eq_none_iff

theorem settle_map_done (rs : List NodeResult) : settle (rs.map .done) = .ok rs := by
  have hnone : breach (rs.map done) = none := by
    rw [breach_eq_none, List.forall_mem_map]
    exact fun _ _ => rfl
  have hfailed : (rs.map done).filterMap failure? = [] := by simp [failure?]
  have hresults : (rs.map done).filterMap result? = rs := by
    simp [List.filterMap_map, Function.comp_def, result?]
  unfold settle
  rw [hnone, hfailed, hresults]

theorem eq_map_done {os : List NodeOutcome} (h : ∀ o ∈ os, ∃ r, o = .done r) :
    os = (os.filterMap result?).map .done := by
  induction os with
  | nil => rfl
  | cons o os ih =>
    obtain ⟨⟨r, rfl⟩, hrest⟩ := List.forall_mem_cons.mp h
    change .done r :: os = .done r :: (os.filterMap result?).map .done
    rw [← ih hrest]

theorem settle_eq_ok {os : List NodeOutcome} {rs : List NodeResult} :
    settle os = .ok rs ↔ os = rs.map .done := by
  constructor
  · intro h
    -- An escape or a failure would have been found first.
    have hdone : ∀ o ∈ os, ∃ r, o = .done r := by
      intro o ho
      unfold settle at h
      split at h
      · cases h
      · next hnone =>
        split at h
        · next hfailed =>
          cases o with
          | done r => exact ⟨r, rfl⟩
          | failed f =>
            have hf : f ∈ os.filterMap failure? := List.mem_filterMap.mpr ⟨_, ho, rfl⟩
            rw [hfailed] at hf
            cases hf
          | escaped f => cases breach_eq_none.mp hnone _ ho
        · cases h
    rw [eq_map_done hdone] at h ⊢
    rw [settle_map_done] at h
    rw [Except.ok.inj h]
  · rintro rfl
    exact settle_map_done rs

end NodeOutcome

namespace Job
variable {j : Job} {finished : Table Output}

theorem callsMade_map_ok (cs : List Call) : callsMade (cs.map .ok) = cs := by
  simp [callsMade, List.filterMap_map]

theorem calls_eq_map_ok {layer : List String} {cs : List Call}
    (h : List.Forall₂ (fun id c => j.call finished id = .ok c) layer cs) :
    j.calls finished layer = cs.map .ok := by
  rw [calls, ← List.forall₂_eq_eq_eq, List.forall₂_map_left_iff, List.forall₂_map_right_iff]
  exact h

theorem runLayer_eq_ok {layer : List String} {t : Trace} {rs : List NodeResult} :
    j.runLayer finished layer = (t, .ok rs) ↔
      ∃ cs, t = .ofCalls cs ∧ j.LayerRun finished layer cs rs := by
  have hdone : ((j.calls finished layer).map NodeOutcome.ofCall = rs.map .done) ↔
      List.Forall₂ (fun id x => ∃ c, j.call finished id = .ok c ∧ c.Gives x) layer rs := by
    rw [calls, List.map_map, ← List.forall₂_eq_eq_eq, List.forall₂_map_left_iff,
      List.forall₂_map_right_iff]
    simp only [Function.comp_apply, NodeOutcome.ofCall_eq_done]
  unfold runLayer
  simp only [Prod.mk.injEq, NodeOutcome.settle_eq_ok]
  rw [hdone]
  constructor
  · rintro ⟨rfl, h⟩
    obtain ⟨cs, hcs, hrs⟩ := exists_forall₂_of_comp h
    refine ⟨cs, ?_, hcs, hrs⟩
    rw [calls_eq_map_ok hcs, callsMade_map_ok]
  · rintro ⟨cs, rfl, hcs, hrs⟩
    refine ⟨?_, ?_⟩
    · rw [calls_eq_map_ok hcs, callsMade_map_ok]
    · rw [← hdone, calls_eq_map_ok hcs, List.map_map, ← List.forall₂_eq_eq_eq,
        List.forall₂_map_left_iff, List.forall₂_map_right_iff]
      exact hrs.imp fun c x h => NodeOutcome.ofCall_eq_done.mpr ⟨c, rfl, h⟩

/-! ## Plans -/

theorem runLayers_of_error {layer : List String} {more : List (List String)} {t : Trace}
    {f : Failure} (h : j.runLayer finished layer = (t, .error f)) :
    j.runLayers finished (layer :: more) = (t, .error f) := by
  rw [runLayers, h]

theorem runLayers_of_ok {layer : List String} {more : List (List String)} {t : Trace}
    {rs : List NodeResult} (h : j.runLayer finished layer = (t, .ok rs)) :
    j.runLayers finished (layer :: more) =
      (t.append (j.runLayers (finished ++ outputsOf rs) more).1,
        (j.runLayers (finished ++ outputsOf rs) more).2.map (rs ++ ·)) := by
  rw [runLayers, h]

/-- The calls and the results of layers whose nodes all ran to their end, each layer on the outputs
finished before it. -/
inductive Completed (j : Job) :
    Table Output → List (List String) → List Call → List NodeResult → Prop
  | nil {finished : Table Output} : Completed j finished [] [] []
  | cons {finished : Table Output} {layer : List String} {more : List (List String)}
      {cs later : List Call} {rs rest : List NodeResult} (here : j.LayerRun finished layer cs rs)
      (after : Completed j (finished ++ outputsOf rs) more later rest) :
      Completed j finished (layer :: more) (cs ++ later) (rs ++ rest)

theorem ofCalls_append (cs ds : List Call) :
    Trace.ofCalls (cs ++ ds) = (Trace.ofCalls cs).append (.ofCalls ds) := by
  simp [Trace.ofCalls, Trace.append]

theorem runLayers_eq_ok {layers : List (List String)} {t : Trace} {rs : List NodeResult} :
    j.runLayers finished layers = (t, .ok rs) ↔
      ∃ cs, t = .ofCalls cs ∧ j.Completed finished layers cs rs := by
  induction layers generalizing finished t rs with
  | nil =>
    constructor
    · intro h
      cases h
      exact ⟨[], rfl, .nil⟩
    · rintro ⟨cs, rfl, h⟩
      cases h
      rfl
  | cons layer more ih =>
    constructor
    · intro h
      unfold runLayers at h
      rcases hlayer : j.runLayer finished layer with ⟨first, settled⟩
      rw [hlayer] at h
      cases settled with
      | error f => cases h
      | ok here =>
        obtain ⟨cs, rfl, hhere⟩ := runLayer_eq_ok.mp hlayer
        rcases hmore : j.runLayers (finished ++ outputsOf here) more with ⟨second, ran⟩
        simp only [hmore, Prod.mk.injEq, map_eq_ok] at h
        obtain ⟨rfl, rest, rfl, rfl⟩ := h
        obtain ⟨later, rfl, hafter⟩ := ih.mp hmore
        exact ⟨cs ++ later, (ofCalls_append cs later).symm, .cons hhere hafter⟩
    · rintro ⟨cs, rfl, h⟩
      cases h with
      | cons hhere hafter =>
        unfold runLayers
        rw [runLayer_eq_ok.mpr ⟨_, rfl, hhere⟩]
        simp only [ih.mpr ⟨_, rfl, hafter⟩, Except.map, ofCalls_append]

theorem run_eq_ok {asked : Option Int} {t : Trace} {rs : List NodeResult} :
    j.run asked = (t, .ok rs) ↔
      0 ≤ workers asked ∧ ∃ cs, t = .ofCalls cs ∧ j.Completed [] j.accepted.plan.layers cs rs := by
  unfold run
  split
  · next h =>
    have hneg : ¬0 ≤ workers asked := by omega
    simp [hneg]
  · next h =>
    have hpos : 0 ≤ workers asked := by omega
    rw [runLayers_eq_ok, and_iff_right hpos]

namespace Completed
variable {layers : List (List String)} {cs : List Call} {rs : List NodeResult}

theorem results (h : j.Completed finished layers cs rs) : List.Forall₂ Call.Gives cs rs := by
  induction h with
  | nil => exact .nil
  | cons here _ ih => exact List.rel_append here.results ih

/-- There is one call for each node of the layers, in order, each on some finished outputs. -/
theorem calls (h : j.Completed finished layers cs rs) :
    List.Forall₂ (fun id c => ∃ seen, j.call seen id = .ok c) layers.flatten cs := by
  induction h with
  | nil => exact .nil
  | cons here _ ih =>
    exact List.rel_append (here.calls.imp fun _ _ hcall => ⟨_, hcall⟩) ih

theorem nodeIds_calls (h : j.Completed finished layers cs rs) :
    cs.map (·.node.id) = layers.flatten := by
  rw [← List.forall₂_eq_eq_eq, List.forall₂_map_left_iff]
  refine (h.calls.flip).imp ?_
  rintro c id ⟨seen, hcall⟩
  exact (Blueprint.id_of_node? (call_eq_ok.mp hcall).1).2

theorem nodeIds_results (h : j.Completed finished layers cs rs) :
    rs.map (·.nodeId) = layers.flatten := by
  rw [← h.nodeIds_calls, Call.nodeIds_eq_of_gives h.results]

end Completed
end Job
end ProjectComposer
