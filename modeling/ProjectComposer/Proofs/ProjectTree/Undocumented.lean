import ProjectComposer.Proofs.ProjectTree.Disputes

/-!
Trees without documents. Documents only add to what contributions have to agree on, so what can be
merged with its documents can be merged without them, to the same variables, scripts and
dependencies. What is left of a tree are the files that are neither documents of its index nor the
overview; where two tables record a placement, their parts record that part of it.
-/
namespace ProjectComposer
set_option autoImplicit false

/-! ## Parts of a placement -/

theorem Placement.Recorded.filter {P : Placement} {files : Table String}
    {origins : Table (List String)} (h : P.Recorded files origins) (keep : String → Bool) :
    Recorded (fun node path content => P node path content ∧ keep path = true)
      (files.filter fun e => keep e.1) (origins.filter fun e => keep e.1) := by
  have hkept {path : String} {nodes : List String}
      (hnodes : Table.get? (origins.filter fun e => keep e.1) path = some nodes) :
      keep path = true ∧ origins.get? path = some nodes := by
    rw [Table.get?_filter] at hnodes
    split at hnodes
    · next hkeep => exact ⟨hkeep, hnodes⟩
    · cases hnodes
  refine ⟨?_, ?_, fun path content => ?_, fun path nodes hnodes => ?_,
    fun path nodes hnodes node => ?_⟩
  · rw [Table.keys_filter]
    exact h.nodup_paths.filter keep
  · rw [Table.keys_filter, Table.keys_filter, h.paths_eq]
  · rw [Table.get?_filter]
    split
    · next hkeep => simp only [h.content_iff, hkeep, and_true]
    · next hkeep => simp [hkeep]
  · exact h.pairwise_nodes path nodes (hkept hnodes).2
  · obtain ⟨hkeep, hfound⟩ := hkept hnodes
    simp only [h.node_iff path nodes hfound, hkeep, and_true]

/-! ## Disputes -/

theorem Contribution.Proposes.withDocs {c : Contribution} {docs : Bool} {topic : Topic}
    {key value : String} (h : c.Proposes docs topic key value) :
    c.Proposes true topic key value := by
  cases h with
  | content hputs =>
    cases hputs with
    | file hf => exact .content (.file hf)
    | doc hdocs hd => exact .content (.doc rfl hd)
  | default hv hs hshown => exact .default hv hs hshown
  | command hs => exact .command hs
  | version hd => exact .version hd

theorem Disputed.withDocs {cs : List Contribution} {docs : Bool} {topic : Topic} {key : String}
    (h : Disputed cs docs topic key) : Disputed cs true topic key := by
  obtain ⟨c, hc, d, hd, v, w, hv, hw, hne⟩ := h
  exact ⟨c, hc, d, hd, v, w, hv.withDocs, hw.withDocs, hne⟩

/-! ## Trees -/

namespace ProjectTree
open Merge

/-- Neither the overview nor a document of the index. -/
def isUndocumented (t : ProjectTree) (path : String) : Bool :=
  path ≠ "README.md" ∧ path ∉ t.docs.map (·.path)

/-- What is left of a tree without its documents and the overview. -/
def withoutDocs (t : ProjectTree) : ProjectTree :=
  { t with
    files := t.files.filter fun e => t.isUndocumented e.1
    origins := t.origins.filter fun e => t.isUndocumented e.1
    docs := [] }

section OfContributions
variable {cs : List Contribution} {docs docs' : Bool} {t t' : ProjectTree}

/-- With its documents and without them, contributions merge to the same but for files, origins and
index. -/
theorem eq_of_ofContributions (h : ofContributions cs docs = .ok t)
    (h' : ofContributions cs docs' = .ok t') :
    t' = { t with files := t'.files, origins := t'.origins, docs := t'.docs } := by
  obtain ⟨-, rfl⟩ := ofContributions_eq_ok.mp h
  obtain ⟨-, rfl⟩ := ofContributions_eq_ok.mp h'
  rfl

theorem mem_map_path_docs (h : ofContributions cs true = .ok t) {path : String} :
    path ∈ t.docs.map (·.path) ↔ ∃ c ∈ cs, ∃ d ∈ c.output.docs, d.path = path := by
  change path ∈ t.docs.map DocEntry.path ↔ _
  rw [map_path_docs h, if_pos rfl, Text.mem_sortedDistinct]
  simp only [List.mem_map, mem_offered, Prod.exists]
  constructor
  · rintro ⟨c, d, ⟨hc, hd⟩, hpath⟩
    exact ⟨c, hc, d, hd, hpath⟩
  · rintro ⟨c, hc, d, hd, hpath⟩
    exact ⟨c, d, ⟨hc, hd⟩, hpath⟩

end OfContributions
end ProjectTree
end ProjectComposer
