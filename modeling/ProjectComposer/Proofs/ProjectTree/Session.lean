import Mathlib.Data.List.Induction
import ProjectComposer.Proofs.ProjectTree.Extended
import ProjectComposer.Proofs.ProjectTree.Merged

/-!
Sessions on a tree. A tree starts empty; a step replaces it by a merge of contributions or adds
files to it, and a step that fails leaves it. Main statement: whatever the steps were, files and
origins have the same paths in order, each path has its origins in order and at least one of them,
and every document of the index is a file. So no step ever looks for origins in vain.
-/
namespace ProjectComposer
set_option autoImplicit false

namespace ProjectTree

/-! ## Trees in order -/

structure InOrder (t : ProjectTree) : Prop where
  paths_eq : t.origins.keys = t.files.keys
  pairwise_paths : t.files.keys.Pairwise (· < ·)
  origins_ne_nil : ∀ e ∈ t.origins, e.2 ≠ []
  pairwise_origins : ∀ e ∈ t.origins, e.2.Pairwise (· < ·)
  docs_mem : ∀ d ∈ t.docs, d.path ∈ t.files.keys

/-- Who has put what where, as the tree tells it. -/
def placement (t : ProjectTree) : Placement :=
  fun node path content => t.files.get? path = some content ∧
    ∃ nodes, t.origins.get? path = some nodes ∧ node ∈ nodes

namespace InOrder
variable {t : ProjectTree}

theorem nodup_paths (h : t.InOrder) : t.files.keys.Nodup :=
  h.pairwise_paths.imp ne_of_lt

theorem recorded (h : t.InOrder) : t.placement.Recorded t.files t.origins := by
  have hentry {path : String} {nodes : List String} (hnodes : t.origins.get? path = some nodes) :
      (path, nodes) ∈ t.origins :=
    Table.mem_of_get? hnodes
  refine ⟨h.nodup_paths, h.paths_eq, fun path content => ?_, fun path nodes hnodes => ?_,
    fun path nodes hnodes node => ?_⟩
  · constructor
    · intro hcontent
      have hpath : path ∈ t.origins.keys :=
        h.paths_eq ▸ Table.mem_keys_iff_get?.mpr ⟨content, hcontent⟩
      obtain ⟨nodes, hnodes⟩ := Table.mem_keys_iff_get?.mp hpath
      obtain ⟨node, hnode⟩ := List.exists_mem_of_ne_nil _ (h.origins_ne_nil _ (hentry hnodes))
      exact ⟨node, hcontent, nodes, hnodes, hnode⟩
    · rintro ⟨node, hcontent, -⟩
      exact hcontent
  · exact h.pairwise_origins _ (hentry hnodes)
  · constructor
    · intro hnode
      have hpath : path ∈ t.files.keys := h.paths_eq ▸ Table.mem_keys_iff_get?.mpr ⟨nodes, hnodes⟩
      obtain ⟨content, hcontent⟩ := Table.mem_keys_iff_get?.mp hpath
      exact ⟨content, hcontent, nodes, hnodes, hnode⟩
    · rintro ⟨content, -, nodes', hnodes', hnode⟩
      obtain rfl := Option.some.inj (hnodes.symm.trans hnodes')
      exact hnode

/-- A tree that records some placement is in order once its paths are. -/
theorem of_recorded {P : Placement} (h : P.Recorded t.files t.origins)
    (hsorted : t.files.keys.Pairwise (· < ·)) (hdocs : ∀ d ∈ t.docs, d.path ∈ t.files.keys) :
    t.InOrder := by
  have hfound {e : String × List String} (he : e ∈ t.origins) :
      t.origins.get? e.1 = some e.2 :=
    (Table.get?_eq_some_iff (h.paths_eq ▸ h.nodup_paths)).mpr he
  refine ⟨h.paths_eq, hsorted, fun e he hnil => ?_, fun e he => ?_, hdocs⟩
  · have hpath : e.1 ∈ t.files.keys := h.paths_eq ▸ Table.mem_keys_iff_get?.mpr ⟨e.2, hfound he⟩
    obtain ⟨node, content, hput⟩ := h.mem_paths_iff.mp hpath
    have hnode : node ∈ e.2 := (h.node_iff e.1 e.2 (hfound he) node).mpr ⟨content, hput⟩
    rw [hnil] at hnode
    cases hnode
  · exact h.pairwise_nodes e.1 e.2 (hfound he)

theorem empty : InOrder {} := by
  constructor <;> simp [Table.keys]

theorem merged {cs : List Contribution} {docs : Bool} (h : ofContributions cs docs = .ok t) :
    t.InOrder := by
  refine of_recorded (recorded_ofContributions h) (pairwise_paths_ofContributions h) fun d hd => ?_
  obtain ⟨-, horigins⟩ := merges_of_mem_docs h hd
  rw [← (keys_ofContributions h).2]
  exact Table.mem_keys_iff_get?.mpr ⟨_, horigins⟩

/-- Files that are added join those that are there, so the documents of the index stay. -/
theorem added (ht : t.InOrder) {t' : ProjectTree} {files : List File} {origin : String}
    {plugins : Table String} (h : t.addFiles files origin plugins = .ok t') : t'.InOrder := by
  obtain ⟨hrecorded, hsorted⟩ := recorded_addFiles h ht.recorded
  refine of_recorded hrecorded hsorted fun d hd => ?_
  rw [eq_of_addFiles h] at hd
  obtain ⟨node, content, hput⟩ := ht.recorded.mem_paths_iff.mp (ht.docs_mem d hd)
  exact hrecorded.mem_paths_iff.mpr ⟨node, content, .inl hput⟩

end InOrder

/-! ## Steps -/

inductive Step
  | merge (cs : List Contribution) (includeDocs : Bool)
  | add (files : List File) (origin : String) (plugins : Table String)

/-- What a step makes of a tree. -/
def Step.run (t : ProjectTree) : Step → Except Failure ProjectTree
  | .merge cs includeDocs => (ofContributions cs includeDocs).mapError .fault
  | .add files origin plugins => t.addFiles files origin plugins

/-- The tree after a step, the one before where the step fails. -/
def next (t : ProjectTree) (s : Step) : ProjectTree :=
  match s.run t with
  | .ok t' => t'
  | .error _ => t

/-- The tree after all steps, the first of which finds it empty. -/
def after (ss : List Step) : ProjectTree :=
  ss.foldl next {}

theorem next_of_error {t : ProjectTree} {s : Step} {f : Failure} (h : s.run t = .error f) :
    t.next s = t := by
  rw [next, h]

theorem after_concat (ss : List Step) (s : Step) : after (ss ++ [s]) = (after ss).next s := by
  rw [after, List.foldl_append]
  rfl

namespace InOrder
variable {t : ProjectTree}

theorem run (ht : t.InOrder) {s : Step} {t' : ProjectTree} (h : s.run t = .ok t') :
    t'.InOrder := by
  cases s with
  | merge cs includeDocs => exact merged (mapError_eq_ok.mp h)
  | add files origin plugins => exact ht.added h

theorem next (ht : t.InOrder) (s : Step) : (t.next s).InOrder := by
  unfold ProjectTree.next
  split
  · next t' h => exact ht.run h
  · exact ht

theorem after (ss : List Step) : (after ss).InOrder := by
  induction ss using List.reverseRecOn with
  | nil => exact empty
  | append_singleton ss s ih =>
    rw [after_concat]
    exact ih.next s

/-- A step on a tree in order fails with a fault alone, for the origins of a file are there. -/
theorem onlyReported_run (ht : t.InOrder) (s : Step) : OnlyReported (s.run t) := by
  cases s with
  | merge cs includeDocs => exact (diagnosed_ofContributions cs includeDocs).mapError
  | add files origin plugins => exact onlyReported_addFiles ht.paths_eq files origin plugins

end InOrder

/-- A tree is in order after any steps, and any further step leads to a tree in order or fails with
a reported fault and leaves the tree; it does not fail for want of origins. -/
theorem after_inOrder (ss : List Step) :
    (after ss).InOrder ∧
    (∀ s f, s.run (after ss) = .error f → after (ss ++ [s]) = after ss ∧ f.IsReported) ∧
    ∀ files origin plugins path,
      (after ss).addFiles files origin plugins ≠ .error (.lookup (.origins path)) := by
  have hafter := InOrder.after ss
  refine ⟨hafter, fun s f hf => ⟨?_, hafter.onlyReported_run s f hf⟩,
    fun files origin plugins path hlookup => ?_⟩
  · rw [after_concat, next_of_error hf]
  · obtain ⟨f, hf, -⟩ := hafter.onlyReported_run (.add files origin plugins) _ hlookup
    cases hf

/-- A file that is there already gains an origin and a new one comes in; then one that differs is
refused, together with another new one. -/
theorem after_inOrder_refused :
    let page : File := ⟨"page.ts", "page", none⟩
    let manifest : File := ⟨"package.json", "\x7b\x7d", none⟩
    let shop : Contribution := ⟨"shop", "s", { files := [page], docs := [⟨"a.md", "A", ""⟩] }⟩
    let steps : List Step := [.merge [shop] true, .add [page, manifest] "dappforge" []]
    let refused : Step :=
      .add [{ page with content := "other" }, ⟨"b.ts", "", none⟩] "dappforge" [("shop", "s")]
    (after steps).InOrder ∧ (after steps).origins =
      [("a.md", ["shop"]), ("package.json", ["dappforge"]), ("page.ts", ["dappforge", "shop"])] ∧
    ∃ f, refused.run (after steps) = .error f ∧ after (steps ++ [refused]) = after steps ∧
      f.IsReported := by
  intro page manifest shop steps refused
  obtain ⟨hinOrder, hfails, -⟩ := after_inOrder steps
  have horigins : (after steps).origins = [("a.md", ["shop"]), ("package.json", ["dappforge"]),
      ("page.ts", ["dappforge", "shop"])] := by
    decide +kernel
  cases hrun : refused.run (after steps) with
  | ok t =>
    have hnone : (refused.run (after steps)).toOption = none := by
      decide +kernel
    rw [hrun] at hnone
    cases hnone
  | error f => exact ⟨hinOrder, horigins, f, rfl, hfails refused f hrun⟩

end ProjectTree
end ProjectComposer
