import ProjectComposer.Compilation
import ProjectComposer.Proofs.Execution.Calls
import ProjectComposer.Proofs.Validation.DefaultSettings

/-!
How a compilation ends, whichever generators fail. Where validation refuses the blueprint, none is
called. Otherwise the layers are called in turn up to the first with a node that gives no output,
every node of them once; if there is no such node, the results come one for each node in the order
of the plan. If the failures of the last layer called are all reported, the fault tells of them, in
its order. Nothing reports a cancellation, an error without a text, a generator that is never heard
of or an output that cannot be copied; nor does anything stop a negative number of workers.
-/
namespace ProjectComposer
set_option autoImplicit false

namespace Job

/-! ## What a run should end with -/

/-- Every node is called and its result is there, in the order of the plan. -/
structure Completes (j : Job) (css : List (List Call)) (ended : Except Failure (List NodeResult)) :
    Prop where
  length_eq : css.length = j.accepted.plan.layers.length
  perm_nodeIds : (css.flatten.map (·.node.id)).Perm j.blueprint.nodeIds
  results : ∃ rs, ended = .ok rs ∧ rs.map (·.nodeId) = j.accepted.plan.order ∧
    List.Forall₂ Call.Gives css.flatten rs

/-- A layer is the first with failing calls and the last one called; the fault tells of these calls
in their order, with one diagnostic for each. -/
structure FailsAt (css : List (List Call)) (k : ℕ) (hk : k < css.length)
    (ended : Except Failure (List NodeResult)) : Prop where
  length_eq : css.length = k + 1
  earlier : ∀ c ∈ (css.take k).flatten, ∃ o, c.Returns o
  fault : ∃ failing first siblings, failing.Sublist css[k] ∧
    (∀ c ∈ css[k], c ∈ failing ↔ ∃ f, c.Fails f) ∧
    List.Forall₂ Call.Fails failing (first :: siblings) ∧
    ended = .error (.fault
      ⟨.plugin first siblings, (first :: siblings).map PluginFailure.diagnostic⟩)

/-- A layer is the first with calls that escape and the last one called; the run does not end, or
ends with the first of them. -/
structure BreaksAt (css : List (List Call)) (k : ℕ) (hk : k < css.length)
    (ended : Except Failure (List NodeResult)) : Prop where
  length_eq : css.length = k + 1
  earlier : ∀ c ∈ (css.take k).flatten, ∃ o, c.Returns o
  broken : ∃ f, Call.Breaks css[k] f ∧ ended = .error f

/-- The calls of a run are those of the first layers, and tell how it ends. Which nodes of a layer
are called beside one that is never heard of is left open. -/
structure CalledOnce (j : Job) (ran : Trace × Except Failure (List NodeResult))
    (css : List (List Call)) : Prop where
  trace_eq : ran.2 ≠ .error .unending → ran.1 = .ofCalls css.flatten
  nodeIds_eq : css.map (·.map (·.node.id)) = j.accepted.plan.layers.take css.length
  nodup_nodeIds : (css.flatten.map (·.node.id)).Nodup
  completed : (∀ c ∈ css.flatten, ∃ o, c.Returns o) → j.Completes css ran.2
  failed : ∀ (k : ℕ) (hk : k < css.length), (∃ c ∈ css[k], ∃ f, c.Fails f) →
    (∀ c ∈ css[k], ∀ f, ¬c.Escapes f) → FailsAt css k hk ran.2
  broken : ∀ (k : ℕ) (hk : k < css.length), (∃ c ∈ css[k], ∃ f, c.Escapes f) →
    BreaksAt css k hk ran.2

/-! ## Failing calls -/

namespace Call

/-- The failures of calls are those of the failing ones, in order. -/
theorem exists_failing (cs : List Call) : ∃ failing, failing.Sublist cs ∧
    (∀ c ∈ cs, c ∈ failing ↔ ∃ f, c.Fails f) ∧ List.Forall₂ Fails failing (failures cs) := by
  have hmem {c : Call} :
      c ∈ cs.filter (fun c => c.failure?.isSome) ↔ c ∈ cs ∧ ∃ f, c.Fails f := by
    simp only [List.mem_filter, Option.isSome_iff_exists, failure?_eq_some]
  have hsame : (cs.filter fun c => c.failure?.isSome).filterMap failure? = failures cs := by
    rw [List.filterMap_filter]
    refine List.filterMap_congr fun c _ => ?_
    cases c.failure? <;> rfl
  refine ⟨cs.filter fun c => c.failure?.isSome, List.filter_sublist, fun c hc => ?_, ?_⟩
  · rw [hmem, and_iff_right hc]
  · have hfailed : ∀ c ∈ cs.filter (fun c => c.failure?.isSome), ∃ f, c.failure? = some f :=
      fun c hc => Option.isSome_iff_exists.mp (List.mem_filter.mp hc).2
    rw [← hsame]
    exact (forall₂_filterMap hfailed).imp fun _ _ => failure?_eq_some.mp

end Call

/-! ## Runs -/

variable {j : Job} {css : List (List Call)} {ended : Except Failure (List NodeResult)}

namespace Ran
variable {finished : Table Output} {layers : List (List String)}

theorem returns_of_take (hran : j.Ran finished layers css ended) {k : ℕ} (hk : k < css.length) :
    ∀ c ∈ (css.take k).flatten, ∃ o, c.Returns o := by
  intro c hc
  obtain ⟨cs, hcs, hccs⟩ := List.mem_flatten.mp hc
  obtain ⟨m, hm, rfl⟩ := List.mem_take_iff_getElem.mp hcs
  exact hran.returns_of_lt (by omega) c hccs

theorem failsAt (hran : j.Ran finished layers css ended) {k : ℕ} (hk : k < css.length)
    (hfails : ∃ c ∈ css[k], ∃ f, c.Fails f) (hreported : ∀ c ∈ css[k], ∀ f, ¬c.Escapes f) :
    FailsAt css k hk ended := by
  have hbreach := Call.breach_eq_none.mpr hreported
  obtain ⟨first, siblings, hfailures, hended⟩ := hran.of_failures hk hbreach hfails
  obtain ⟨failing, hsub, hmem, hfailing⟩ := Call.exists_failing css[k]
  rw [hfailures] at hfailing
  obtain ⟨c, hc, f, hf⟩ := hfails
  have hnone : ¬∃ o, c.Returns o := fun ⟨o, ho⟩ => ho.not_fails f hf
  exact ⟨hran.length_eq hk hc hnone, hran.returns_of_take hk, failing, first, siblings, hsub, hmem,
    hfailing, hended⟩

theorem breaksAt (hran : j.Ran finished layers css ended) {k : ℕ} (hk : k < css.length)
    (hescapes : ∃ c ∈ css[k], ∃ f, c.Escapes f) : BreaksAt css k hk ended := by
  obtain ⟨c, hc, f, hf⟩ := hescapes
  have hnone : ¬∃ o, c.Returns o := fun ⟨o, ho⟩ => ho.not_escapes f hf
  cases hbreach : Call.breach css[k] with
  | none => exact absurd hf (Call.breach_eq_none.mp hbreach c hc f)
  | some g =>
    exact ⟨hran.length_eq hk hc hnone, hran.returns_of_take hk, g, Call.breaks_of_breach hbreach,
      hran.of_breach hk hbreach⟩

end Ran

theorem Valid.calledOnce (h : j.Valid) {asked : Option Int} (hworkers : 0 ≤ workers asked) :
    ∃ css, j.CalledOnce (j.run asked) css := by
  obtain ⟨css, htrace, hran⟩ := h.exists_ran hworkers
  have hids : css.map (·.map (·.node.id)) = j.accepted.plan.layers.take css.length := by
    simpa using List.prefix_iff_eq_take.mp hran.isPrefix
  refine ⟨css, fun _ => htrace, hids, h.nodup_ids hran, fun hreturns => ?_,
    fun k hk => hran.failsAt hk, fun k hk => hran.breaksAt hk⟩
  obtain ⟨hlength, rs, hended, hgives⟩ := hran.of_returns hreturns
  have horder : css.flatten.map (·.node.id) = j.accepted.plan.order := by
    rw [List.map_flatten, hids, hlength, List.take_length, Plan.order]
  refine ⟨hlength, horder ▸ h.perm_order, rs, hended, ?_, hgives⟩
  rw [Call.nodeIds_eq_of_gives hgives, horder]

end Job

/-! ## Compilations -/

namespace Blueprint

theorem compile_of_accept {b : Blueprint} {r : Registry} {a : Accepted} (h : b.accept r = .ok a)
    (roots : Roots) (asked : Option Int) :
    b.compile r roots asked = (((b.job r.orBuiltIn a roots).run asked).1,
      ((b.job r.orBuiltIn a roots).run asked).2.bind fun results =>
        ((b.job r.orBuiltIn a roots).assemble results).map fun tree => ⟨tree, results⟩) := by
  rw [compile, h, b.resolve_eq]

theorem compile_of_refused {b : Blueprint} {r : Registry} {f : Failure} (h : b.accept r = .error f)
    (roots : Roots) (asked : Option Int) : b.compile r roots asked = ({}, .error f) := by
  rw [compile, h]

/-- No generator is called unless validation accepts the blueprint. Otherwise the generators are
called layer by layer, and the way they end is the way the compilation ends where some fail. -/
theorem compile_calledOnce (b : Blueprint) (r : Registry) (roots : Roots) (asked : Option Int) :
    (∀ f, b.accept r = .error f → b.compile r roots asked = ({}, .error f)) ∧
    ∀ a, b.accept r = .ok a →
      let j := b.job r.orBuiltIn a roots
      (b.compile r roots asked).1 = (j.run asked).1 ∧
      (∀ f, (j.run asked).2 = .error f → (b.compile r roots asked).2 = .error f) ∧
      if Job.workers asked < 0 then j.run asked = ({}, .error .workers)
      else ∃ css, j.CalledOnce (j.run asked) css := by
  constructor
  · intro f hrefused
    rw [compile, hrefused]
  · intro a haccept
    have hvalid : (b.job r.orBuiltIn a roots).Valid := haccept
    have hcompile := compile_of_accept haccept roots asked
    refine ⟨by rw [hcompile], fun f hf => by rw [hcompile, hf]; rfl, ?_⟩
    split
    · next hneg => exact Job.run_of_neg hneg
    · next hneg => exact hvalid.calledOnce (not_lt.mp hneg)

/-- One node raises an error and another one returns no output; the nodes beside them are called,
the node that needs them is not. -/
theorem compile_calledOnce_siblings :
    let good : Plugin := {
      card := { id := "good", name := "Good", field := .app }
      generate := fun _ _ => { result := .ok (.output {}) } }
    let raising : Plugin := {
      card := { id := "raising", name := "Raising", field := .app }
      generate := fun _ _ => { result := .error (.raised ⟨"ValueError", "no luck"⟩) } }
    let odd : Plugin := {
      card := { id := "odd", name := "Odd", field := .app }
      generate := fun _ _ => { result := .ok (.other "int") } }
    let last : Plugin := {
      card := { id := "last", name := "Last", field := .app }
      needs := [⟨"odd", true, []⟩]
      generate := fun _ _ => { result := .ok (.output {}) } }
    let r : Registry := .ofPlugins [good, raising, odd, last]
    let b : Blueprint := {
      id := "demo"
      nodes := [⟨"l", "last", [], none⟩, ⟨"g", "good", [], none⟩, ⟨"o", "odd", [], none⟩,
        ⟨"r", "raising", [], none⟩, ⟨"h", "good", [], none⟩] }
    let first : PluginFailure := ⟨"o", "odd", .notAnOutput "int"⟩
    let sibling : PluginFailure := ⟨"r", "raising", .raised ⟨"ValueError", "no luck"⟩⟩
    ∃ a css, b.accept r = .ok a ∧ a.plan.layers = [["g", "o", "r", "h"], ["l"]] ∧
      (b.compile r).1.calls.map (·.nodeId) = ["g", "o", "r", "h"] ∧
      ((b.job r.orBuiltIn a {}).run none).2 = .error (.fault
        ⟨.plugin first [sibling], [first.diagnostic, sibling.diagnostic]⟩) ∧
      (b.job r.orBuiltIn a {}).CalledOnce ((b.job r.orBuiltIn a {}).run none) css := by
  intro good raising odd last r b first sibling
  have hlayers : (b.accept r).toOption.map (·.plan.layers) =
      some [["g", "o", "r", "h"], ["l"]] := by
    decide +kernel
  obtain ⟨a, ha, hlayers⟩ := Option.map_eq_some_iff.mp hlayers
  have haccept : b.accept r = .ok a := toOption_eq_some.mp ha
  have hcalls : (b.compile r).1.calls.map (·.nodeId) = ["g", "o", "r", "h"] := by
    decide +kernel
  have hended : (b.accept r).toOption.map (fun a => ((b.job r.orBuiltIn a {}).run none).2) =
      some (.error (.fault ⟨.plugin first [sibling], [first.diagnostic, sibling.diagnostic]⟩)) := by
    decide +kernel
  rw [ha, Option.map_some, Option.some.injEq] at hended
  obtain ⟨css, hcss⟩ := ((compile_calledOnce b r {} none).2 a haccept).2.2
  exact ⟨a, css, haccept, hlayers, hcalls, hended, hcss⟩

/-- The only node fails, and no fault tells of it; nor does one tell of workers less than none, with
whom no node is called. -/
theorem compile_unreported :
    let p (result : Except Abort Returned) : Plugin := {
      card := { id := "p", name := "P", field := .app }
      generate := fun _ _ => { result := result } }
    let b : Blueprint := { id := "demo", nodes := [⟨"n", "p", [], none⟩] }
    let ends (workers : Option Int) (result : Except Abort Returned) :=
      let compiled := b.compile (.ofPlugins [p result]) {} workers
      (compiled.1.calls.map (·.nodeId), compiled.2.map (·.results))
    let untold : Raised := ⟨"TypeError", "__str__ returned non-string (type int)"⟩
    let uncopied : Raised := ⟨"TypeError", "cannot pickle '_thread.lock' object"⟩
    ends none (.error .cancelled) = (["n"], .error (.raised ⟨"CancelledError", ""⟩)) ∧
      ends none (.error .unheard) = (["n"], .error .unending) ∧
      ends none (.error (.untold untold)) = (["n"], .error (.raised untold)) ∧
      ends none (.ok (.unchecked uncopied)) = (["n"], .error (.raised uncopied)) ∧
      ends (some (-1)) (.ok (.output {})) = ([], .error .workers) := by
  decide +kernel

end Blueprint
end ProjectComposer
