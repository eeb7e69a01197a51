import ProjectComposer.Proofs.Validation.Widened

/-!
Valid structure. Main statement: nothing is found wrong with the structure of a blueprint exactly if
it has nodes, with distinct ids and registered kinds, its edges lead from outputs of nodes to inputs
of other nodes that take what flows there, and every required input is the target of an edge.

The findings pass over what an earlier finding is about: a repeated node, an edge with an unknown
end, the ports of an unknown kind. Nothing is lost by that, for whatever is passed over has been
found wrong already.
-/
namespace ProjectComposer
set_option autoImplicit false

/-! ## Ports -/

/-- The first port that a plugin declares under an id. -/
def Plugin.Declares (p : Plugin) (id : String) (q : Port) : Prop :=
  ∃ before after, p.ports = before ++ q :: after ∧ q.id = id ∧ ∀ x ∈ before, x.id ≠ id

/-- What comes out at a port may go in at another one. -/
def Port.Feeds (o i : Port) : Prop :=
  o.direction = .output ∧ i.direction = .input ∧
    (o.dataType = i.dataType ∨ o.dataType = .any ∨ i.dataType = .any)

theorem DataType.fits_iff {s t : DataType} : s.fits t = true ↔ s = t ∨ s = .any ∨ t = .any := by
  unfold fits
  simp only [Bool.or_eq_true, decide_eq_true_eq]
  tauto

namespace Plugin
variable {p : Plugin} {id : String} {q : Port}

theorem port?_eq_some : p.port? id = some q ↔ p.Declares id q := by
  unfold port? Declares
  simp only [List.find?_eq_some_iff_append, decide_eq_true_eq, Bool.not_eq_true',
    decide_eq_false_iff_not, ne_eq]
  constructor
  · rintro ⟨hid, before, after, hports, hbefore⟩
    exact ⟨before, after, hports, hid, hbefore⟩
  · rintro ⟨before, after, hports, hid, hbefore⟩
    exact ⟨hid, before, after, hports, hbefore⟩

theorem outputPort?_eq_some :
    p.outputPort? id = some q ↔ p.Declares id q ∧ q.direction = .output := by
  simp [outputPort?, Option.filter_eq_some_iff, port?_eq_some]

theorem inputPort?_eq_some :
    p.inputPort? id = some q ↔ p.Declares id q ∧ q.direction = .input := by
  simp [inputPort?, Option.filter_eq_some_iff, port?_eq_some]

end Plugin

/-! ## Edges -/

namespace Edge
variable {e : Edge} {r : Registry} {nodes : List Node} {s t : Node} {o i : Port}

theorem ends_eq_ok (h : (nodes.map (·.id)).Nodup) : e.ends nodes = .ok (s, t) ↔
    (s ∈ nodes ∧ s.id = e.source.node) ∧ (t ∈ nodes ∧ t.id = e.target.node) ∧ s.id ≠ t.id := by
  constructor
  · intro hends
    obtain ⟨hsource, htarget⟩ := ends_mem hends
    exact ⟨hsource, htarget, ends_ne hends⟩
  · rintro ⟨hsource, htarget, hne⟩
    unfold ends
    rw [(find?_id_eq_some h).mpr hsource]
    dsimp only
    rw [(find?_id_eq_some h).mpr htarget]
    exact if_neg hne

theorem ports_eq_ok : e.ports r s t = .ok (o, i) ↔
    ∃ p q, r.get? s.kind = some p ∧ r.get? t.kind = some q ∧
      p.outputPort? e.source.port = some o ∧ q.inputPort? e.target.port = some i := by
  unfold ports
  cases hp : r.get? s.kind with
  | none => simp
  | some p =>
    cases hq : r.get? t.kind with
    | none => simp
    | some q =>
      dsimp only
      cases hout : p.outputPort? e.source.port with
      | none => cases q.inputPort? e.target.port <;> simp [hout]
      | some o => cases hin : q.inputPort? e.target.port <;> simp [hout, hin]

/-- Where both kinds are registered, ports that are not there are found to be missing. -/
theorem ports_ne_error_nil (hs : ∃ p, r.get? s.kind = some p) (ht : ∃ q, r.get? t.kind = some q) :
    e.ports r s t ≠ .error [] := by
  obtain ⟨p, hp⟩ := hs
  obtain ⟨q, hq⟩ := ht
  unfold ports
  rw [hp, hq]
  dsimp only
  cases p.outputPort? e.source.port with
  | none => cases q.inputPort? e.target.port <;> simp
  | some o => cases q.inputPort? e.target.port <;> simp

theorem isWired_iff : e.isWired r nodes = true ↔
    ∃ s t o i, e.ends nodes = .ok (s, t) ∧ e.ports r s t = .ok (o, i) := by
  unfold isWired
  rcases e.ends nodes with f | ⟨s, t⟩
  · simp
  · simp only [Except.ok.injEq, Prod.mk.injEq]
    rcases hports : e.ports r s t with fs | ⟨o, i⟩
    · simp [hports]
    · simp [hports]

theorem findings_eq_nil (hkinds : ∀ n ∈ nodes, ∃ p, r.get? n.kind = some p) :
    e.findings r nodes = [] ↔ ∃ s t o i, e.ends nodes = .ok (s, t) ∧
      e.ports r s t = .ok (o, i) ∧ o.dataType.fits i.dataType = true := by
  unfold findings
  rcases hends : e.ends nodes with f | ⟨s, t⟩
  · simp
  · obtain ⟨⟨hs, -⟩, ht, -⟩ := ends_mem hends
    have hne : e.ports r s t ≠ .error [] := ports_ne_error_nil (hkinds s hs) (hkinds t ht)
    simp only [Except.ok.injEq, Prod.mk.injEq]
    rcases hports : e.ports r s t with fs | ⟨o, i⟩
    · have hfs : fs ≠ [] := fun hnil => hne (hnil ▸ hports)
      simp [hports, hfs]
    · simp [hports]

end Edge

/-! ## Blueprints -/

namespace Blueprint
variable {b : Blueprint} {r : Registry}

/-- An edge joins two nodes, from an output of one to an input of the other. -/
def Connects (b : Blueprint) (r : Registry) (e : Edge) : Prop :=
  ∃ s ∈ b.nodes, ∃ t ∈ b.nodes, s.id = e.source.node ∧ t.id = e.target.node ∧ s.id ≠ t.id ∧
    ∃ p q o i, r.get? s.kind = some p ∧ r.get? t.kind = some q ∧
      p.Declares e.source.port o ∧ q.Declares e.target.port i ∧ o.Feeds i

structure WellStructured (b : Blueprint) (r : Registry) : Prop where
  nodes_ne_nil : b.nodes ≠ []
  id_ne_empty : ∀ n ∈ b.nodes, n.id ≠ ""
  nodup_ids : (b.nodes.map (·.id)).Nodup
  registered : ∀ n ∈ b.nodes, ∃ p, r.get? n.kind = some p
  connects : ∀ e ∈ b.edges, b.Connects r e
  /-- A required input is the target of an edge. -/
  supplied : ∀ n ∈ b.nodes, ∀ p, r.get? n.kind = some p → ∀ q ∈ p.ports, q.direction = .input →
    q.required = true → ∃ e ∈ b.edges, e.target.node = n.id ∧ e.target.port = q.id

/-- Among nodes with distinct ids and registered kinds, nothing is wrong with an edge that connects.
-/
theorem connects_iff (hids : (b.nodes.map (·.id)).Nodup)
    (hkinds : ∀ n ∈ b.nodes, ∃ p, r.get? n.kind = some p) {e : Edge} :
    b.Connects r e ↔ e.findings r b.nodes = [] := by
  simp only [Edge.findings_eq_nil hkinds, Edge.ends_eq_ok hids, Edge.ports_eq_ok,
    Plugin.outputPort?_eq_some, Plugin.inputPort?_eq_some, DataType.fits_iff]
  constructor
  · rintro ⟨s, hs, t, ht, hsource, htarget, hne, p, q, o, i, hp, hq, ho, hi, hout, hin, hfits⟩
    exact ⟨s, t, o, i, ⟨⟨hs, hsource⟩, ⟨ht, htarget⟩, hne⟩, ⟨p, q, hp, hq, ⟨ho, hout⟩, hi, hin⟩,
      hfits⟩
  · rintro ⟨s, t, o, i, ⟨⟨hs, hsource⟩, ⟨ht, htarget⟩, hne⟩, ⟨p, q, hp, hq, ⟨ho, hout⟩, hi, hin⟩,
      hfits⟩
    exact ⟨s, hs, t, ht, hsource, htarget, hne, p, q, o, i, hp, hq, ho, hi, hout, hin, hfits⟩

/-- Edges that nothing is wrong with all reach their inputs. -/
theorem filter_isWired_eq_self (hkinds : ∀ n ∈ b.nodes, ∃ p, r.get? n.kind = some p)
    (hedges : ∀ e ∈ b.edges, e.findings r b.nodes = []) :
    (b.edges.filter fun e => e.isWired r b.nodes) = b.edges := by
  refine List.filter_eq_self.mpr fun e he => ?_
  obtain ⟨s, t, o, i, hends, hports, -⟩ := (Edge.findings_eq_nil hkinds).mp (hedges e he)
  exact Edge.isWired_iff.mpr ⟨s, t, o, i, hends, hports⟩

/-- The inputs left over are those that no edge leads to. -/
theorem inputFindings_targets_eq_nil : inputFindings r (b.edges.map (·.target)) b.nodes = [] ↔
    ∀ n ∈ b.nodes, ∀ p, r.get? n.kind = some p → ∀ q ∈ p.ports, q.direction = .input →
      q.required = true → ∃ e ∈ b.edges, e.target.node = n.id ∧ e.target.port = q.id := by
  have htarget (e : Edge) (node port : String) :
      e.target = ⟨node, port⟩ ↔ e.target.node = node ∧ e.target.port = port := by
    rw [Endpoint.mk.injEq]
  simp only [inputFindings_eq_nil, Plugin.inputPorts, List.mem_filter, decide_eq_true_eq,
    List.mem_map, htarget, and_imp]

theorem findings_eq_nil_iff : b.findings r = [] ↔ b.WellStructured r := by
  rw [findings_eq_nil, idFindings_eq_nil, kindFindings_eq_nil, List.flatMap_eq_nil_iff]
  constructor
  · rintro ⟨hne, ⟨hempty, hids⟩, hkinds, hedges, hinputs⟩
    rw [filter_isWired_eq_self hkinds hedges, inputFindings_targets_eq_nil] at hinputs
    exact ⟨hne, fun n hn => (hempty n hn).1, hids, hkinds,
      fun e he => (connects_iff hids hkinds).mpr (hedges e he), hinputs⟩
  · intro h
    have hedges : ∀ e ∈ b.edges, e.findings r b.nodes = [] := fun e he =>
      (connects_iff h.nodup_ids h.registered).mp (h.connects e he)
    refine ⟨h.nodes_ne_nil, ⟨fun n hn => ⟨h.id_ne_empty n hn, List.not_mem_nil⟩, h.nodup_ids⟩,
      h.registered, hedges, ?_⟩
    rw [filter_isWired_eq_self h.registered hedges, inputFindings_targets_eq_nil]
    exact h.supplied

/-- Every finding is reported, and nothing else is. -/
theorem validateStructure_of_findings {f : Finding} {fs : List Finding}
    (h : b.findings r = f :: fs) : b.validateStructure r = .error
      ⟨.graph ((f :: fs).map Finding.message), (f :: fs).map Finding.diagnostic⟩ := by
  unfold validateStructure
  rw [h]
  simp [Fault.ofFindings, Fault.ofKind, Finding.diagnostic]

/-- Validation accepts what is well structured and nothing else, and refuses the rest with a fault
of the graph that has a diagnostic. -/
theorem validateStructure_iff (b : Blueprint) (r : Registry) :
    (b.validateStructure r = .ok () ↔ b.WellStructured r) ∧
    (¬b.WellStructured r → ∃ messages d ds,
      b.validateStructure r = .error ⟨.graph messages, d :: ds⟩) := by
  rw [← findings_eq_nil_iff]
  refine ⟨validateStructure_eq_ok, fun hne => ?_⟩
  obtain ⟨f, fs, hfindings⟩ := List.exists_cons_of_ne_nil hne
  exact ⟨_, _, _, validateStructure_of_findings hfindings⟩

/-- An input that takes anything, and the same input behind an output that goes by its id. -/
theorem validateStructure_iff_shadowed :
    let input : Port := ⟨"in", "In", .input, .any, true⟩
    let output : Port := ⟨"in", "Out", .output, .any, false⟩
    let made : Port := ⟨"out", "Out", .output, .contract, false⟩
    let plugin (id : String) (ports : List Port) : Plugin := {
      card := { id := id, name := id, field := .app }
      ports := ports
      generate := fun _ _ => { result := .ok (.output {}) } }
    let r : Registry := .ofPlugins [plugin "maker" [made], plugin "taker" [input, output]]
    let r' : Registry := .ofPlugins [plugin "maker" [made], plugin "taker" [output, input]]
    let b : Blueprint := {
      id := "b"
      nodes := [⟨"t", "taker", [], none⟩, ⟨"m", "maker", [], none⟩]
      edges := [⟨"e", ⟨"m", "out"⟩, ⟨"t", "in"⟩⟩] }
    b.WellStructured r ∧ ¬b.WellStructured r' ∧ ∃ messages d ds,
      b.validateStructure r' = .error ⟨.graph messages, d :: ds⟩ := by
  intro input output made plugin r r' b
  have haccepted : b.validateStructure r = .ok () := by
    decide +kernel
  have hrefused : b.validateStructure r' ≠ .ok () := by
    decide +kernel
  obtain ⟨hiff, -⟩ := validateStructure_iff b r
  obtain ⟨hiff', hfaulty⟩ := validateStructure_iff b r'
  have hbad : ¬b.WellStructured r' := fun h => hrefused (hiff'.mpr h)
  exact ⟨hiff.mp haccepted, hbad, hfaulty hbad⟩

end Blueprint
end ProjectComposer
