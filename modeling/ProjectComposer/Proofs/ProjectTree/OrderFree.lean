import ProjectComposer.Proofs.ProjectTree.Groups

/-!
Merging reads no more of the contributions than which node puts in which artifact through which
plugin. Main statement: two lists of contributions that hold the same artifacts of the same nodes
have the same tree, or the same fault. Each kind of artifact is grouped by key first, so it is
enough that what is made of one group depends on its members alone; every part of a group that is
looked at is either a sorted set or a question about all or any of its members.
-/
namespace ProjectComposer
set_option autoImplicit false

/-! ## Same artifacts -/

/-- Whether a node puts in an artifact through a plugin. -/
def Contributes {α : Type} (cs : List Contribution) (artifacts : Output → List α)
    (nodeId pluginId : String) (a : α) : Prop :=
  ∃ c ∈ cs, c.nodeId = nodeId ∧ c.pluginId = pluginId ∧ a ∈ artifacts c.output

def SameOffers {α : Type} (cs ds : List Contribution) (artifacts : Output → List α) : Prop :=
  ∀ n p a, Contributes cs artifacts n p a ↔ Contributes ds artifacts n p a

structure SameArtifacts (cs ds : List Contribution) : Prop where
  files : SameOffers cs ds Output.files
  envVars : SameOffers cs ds Output.envVars
  scripts : SameOffers cs ds Output.scripts
  docs : SameOffers cs ds Output.docs
  dependencies : SameOffers cs ds Output.dependencies

/-- The parts together hold the items of an output, in whatever order and however often. -/
structure Output.SplitsInto (o : Output) (parts : List Output) : Prop where
  files : ∀ f, f ∈ o.files ↔ ∃ q ∈ parts, f ∈ q.files
  envVars : ∀ v, v ∈ o.envVars ↔ ∃ q ∈ parts, v ∈ q.envVars
  scripts : ∀ s, s ∈ o.scripts ↔ ∃ q ∈ parts, s ∈ q.scripts
  docs : ∀ d, d ∈ o.docs ↔ ∃ q ∈ parts, d ∈ q.docs
  dependencies : ∀ d, d ∈ o.dependencies ↔ ∃ q ∈ parts, d ∈ q.dependencies

theorem SameOffers.of_mem {α : Type} {cs ds : List Contribution} (h : ∀ c, c ∈ cs ↔ c ∈ ds)
    (artifacts : Output → List α) : SameOffers cs ds artifacts := by
  intro n p a
  simp only [Contributes, h]

theorem SameOffers.of_parts {α : Type} {artifacts : Output → List α} {o : Output}
    {parts : List Output} (h : ∀ a, a ∈ artifacts o ↔ ∃ q ∈ parts, a ∈ artifacts q)
    (cs ds : List Contribution) (nodeId pluginId : String) :
    SameOffers (cs ++ ⟨nodeId, pluginId, o⟩ :: ds)
      (cs ++ parts.map (⟨nodeId, pluginId, ·⟩) ++ ds) artifacts := by
  intro n p a
  simp only [Contributes, List.mem_append, List.mem_cons, List.mem_map]
  constructor
  · rintro ⟨c, hc | rfl | hc, hn, hp, ha⟩
    · exact ⟨c, .inl (.inl hc), hn, hp, ha⟩
    · obtain ⟨q, hq, ha⟩ := (h a).mp ha
      exact ⟨_, .inl (.inr ⟨q, hq, rfl⟩), hn, hp, ha⟩
    · exact ⟨c, .inr hc, hn, hp, ha⟩
  · rintro ⟨c, (hc | ⟨q, hq, rfl⟩) | hc, hn, hp, ha⟩
    · exact ⟨c, .inl hc, hn, hp, ha⟩
    · exact ⟨_, .inr (.inl rfl), hn, hp, (h a).mpr ⟨q, hq, ha⟩⟩
    · exact ⟨c, .inr (.inr hc), hn, hp, ha⟩

theorem SameArtifacts.of_mem {cs ds : List Contribution} (h : ∀ c, c ∈ cs ↔ c ∈ ds) :
    SameArtifacts cs ds :=
  ⟨.of_mem h _, .of_mem h _, .of_mem h _, .of_mem h _, .of_mem h _⟩

theorem SameArtifacts.of_perm {cs ds : List Contribution} (h : cs.Perm ds) :
    SameArtifacts cs ds :=
  .of_mem fun _ => h.mem_iff

theorem SameArtifacts.of_parts {o : Output} {parts : List Output} (h : o.SplitsInto parts)
    (cs ds : List Contribution) (nodeId pluginId : String) :
    SameArtifacts (cs ++ ⟨nodeId, pluginId, o⟩ :: ds)
      (cs ++ parts.map (⟨nodeId, pluginId, ·⟩) ++ ds) :=
  ⟨.of_parts h.files cs ds _ _, .of_parts h.envVars cs ds _ _, .of_parts h.scripts cs ds _ _,
    .of_parts h.docs cs ds _ _, .of_parts h.dependencies cs ds _ _⟩

namespace Merge

/-! ## Offered artifacts -/

/-- An artifact with the node and the plugin that it is from. -/
def attributed {α : Type} (a : Contribution × α) : String × String × α :=
  (a.1.nodeId, a.1.pluginId, a.2)

/-- The same artifacts of the same nodes, in whatever order and however often. -/
def Alike {α : Type} (l m : Offered α) : Prop :=
  ∀ t, t ∈ l.map attributed ↔ t ∈ m.map attributed

theorem mem_attributed_offered {α : Type} {cs : List Contribution} {artifacts : Output → List α}
    {n p : String} {a : α} :
    (n, p, a) ∈ (offered cs artifacts).map attributed ↔ Contributes cs artifacts n p a := by
  simp only [List.mem_map, mem_offered, attributed, Prod.mk.injEq, Contributes]
  constructor
  · rintro ⟨⟨c, x⟩, ⟨hc, hx⟩, hn, hp, rfl⟩
    exact ⟨c, hc, hn, hp, hx⟩
  · rintro ⟨c, hc, hn, hp, hx⟩
    exact ⟨(c, a), ⟨hc, hx⟩, hn, hp, rfl⟩

theorem Alike.offered {α : Type} {cs ds : List Contribution} {artifacts : Output → List α}
    (h : SameOffers cs ds artifacts) : Alike (offered cs artifacts) (offered ds artifacts) := by
  rintro ⟨n, p, a⟩
  rw [mem_attributed_offered, mem_attributed_offered]
  exact h n p a

section Alike
variable {α β : Type} {l m : Offered α}

/-- Whatever is read off node, plugin and artifact has the same values. -/
theorem Alike.mem_map (h : Alike l m) (f : String × String × α → β) (b : β) :
    b ∈ l.map (fun a => f (attributed a)) ↔ b ∈ m.map (fun a => f (attributed a)) := by
  have hf (k : Offered α) :
      k.map (fun a => f (attributed a)) = (k.map attributed).map f := by simp
  rw [hf, hf, List.mem_map, List.mem_map]
  simp only [h _]

theorem Alike.mem_entries (h : Alike l m) (value : α → String) (e : Entry) :
    e ∈ l.map (entry value) ↔ e ∈ m.map (entry value) :=
  h.mem_map (fun t => ⟨t.1, t.2.1, value t.2.2⟩) e

theorem Alike.mem_artifacts (h : Alike l m) (f : α → β) (b : β) :
    b ∈ l.map (fun a => f a.2) ↔ b ∈ m.map (fun a => f a.2) :=
  h.mem_map (fun t => f t.2.2) b

theorem Alike.filter (h : Alike l m) (q : α → Bool) :
    Alike (l.filter fun a => q a.2) (m.filter fun a => q a.2) := by
  have hq (k : Offered α) : (k.filter fun a => q a.2).map attributed =
      (k.map attributed).filter fun t => q t.2.2 := by
    rw [List.filter_map]
    rfl
  intro t
  rw [hq, hq, List.mem_filter, List.mem_filter, h t]

theorem Alike.filterMap (h : Alike l m) (f : α → Option β) :
    Alike (l.filterMap fun a => (f a.2).map fun b => (a.1, b))
      (m.filterMap fun a => (f a.2).map fun b => (a.1, b)) := by
  have hf (k : Offered α) : (k.filterMap fun a => (f a.2).map fun b => (a.1, b)).map attributed =
      (k.map attributed).filterMap fun t => (f t.2.2).map fun b => (t.1, t.2.1, b) := by
    rw [List.map_filterMap, List.filterMap_map]
    congr 1
    funext a
    cases h : f a.2 <;> simp [attributed, h]
  intro t
  rw [hf, hf, List.mem_filterMap, List.mem_filterMap]
  simp only [h _]

theorem Alike.any (h : Alike l m) (q : α → Bool) :
    (l.any fun a => q a.2) = m.any fun a => q a.2 := by
  have hq : true ∈ l.map (fun a => q a.2) ↔ true ∈ m.map (fun a => q a.2) :=
    h.mem_artifacts q true
  rw [Bool.eq_iff_iff, List.any_eq_true, List.any_eq_true]
  simpa only [List.mem_map] using hq

theorem Alike.all (h : Alike l m) (q : α → Bool) :
    (l.all fun a => q a.2) = m.all fun a => q a.2 := by
  have hany := h.any fun a => !q a
  rw [List.all_eq_not_any_not, List.all_eq_not_any_not, hany]

end Alike

/-! ## Entries -/

section Entries
variable {es fs : List Entry}

theorem sortedDistinct_map_congr {α : Type} {l m : List α} (h : ∀ a, a ∈ l ↔ a ∈ m)
    (f : α → String) : Text.sortedDistinct (l.map f) = Text.sortedDistinct (m.map f) := by
  apply Text.sortedDistinct_congr
  intro x
  simp only [List.mem_map, h]

theorem collision_congr (h : ∀ e, e ∈ es ↔ e ∈ fs) (path : String) :
    collision path es = collision path fs := by
  have hn : nodes es = nodes fs := sortedDistinct_map_congr h _
  have hp : plugins es = plugins fs := sortedDistinct_map_congr h _
  unfold collision nodeList
  rw [hn, hp]

theorem conflict_congr (h : ∀ e, e ∈ es ↔ e ∈ fs) (what key : String) :
    conflict what key es = conflict what key fs := by
  have hv : values es = values fs := sortedDistinct_map_congr h _
  have hn : nodes es = nodes fs := sortedDistinct_map_congr h _
  have hp : plugins es = plugins fs := sortedDistinct_map_congr h _
  unfold conflict nodeList
  rw [hv, hn, hp]

theorem agreed_congr {disagreement : List Entry → Fault}
    (hd : disagreement es = disagreement fs) (h : ∀ e, e ∈ es ↔ e ∈ fs) :
    agreed disagreement es = agreed disagreement fs := by
  have hv : values es = values fs := sortedDistinct_map_congr h _
  unfold agreed
  rw [hv, hd]

end Entries

/-! ## Groups -/

theorem byKey_congr {α β : Type} {key : α → String} {merge : String → List α → Except Fault β}
    {l m : List α} (hkeys : ∀ k, k ∈ l.map key ↔ k ∈ m.map key)
    (hmerge : ∀ k, merge k (l.filter fun a => key a = k) = merge k (m.filter fun a => key a = k)) :
    byKey key merge l = byKey key merge m := by
  unfold byKey
  rw [Text.sortedDistinct_congr hkeys]
  simp only [hmerge]

/-- The artifacts of a kind that is grouped by a key of its own. -/
theorem byKey_offered_congr {α β : Type} {key : α → String}
    {merge : String → Offered α → Except Fault β}
    (hmerge : ∀ k l m, Alike l m → merge k l = merge k m) {l m : Offered α} (h : Alike l m) :
    byKey (fun a => key a.2) merge l = byKey (fun a => key a.2) merge m := by
  refine byKey_congr (h.mem_artifacts key) ?_
  intro k
  exact hmerge k _ _ (h.filter fun a => key a = k)

theorem mergePath_congr {path : String} {es fs : List (String × Entry)}
    (h : ∀ e, e ∈ es ↔ e ∈ fs) : mergePath path es = mergePath path fs := by
  have hmem : ∀ e, e ∈ es.map (·.2) ↔ e ∈ fs.map (·.2) := by
    intro e
    simp only [List.mem_map, h]
  have hcontent := agreed_congr (collision_congr hmem path) hmem
  have hnodes := sortedDistinct_map_congr hmem Entry.nodeId
  simp only [mergePath, nodes, hcontent, hnodes]

theorem descriptions_congr {ds es : List String} (h : ∀ d, d ∈ ds ↔ d ∈ es) :
    descriptions ds = descriptions es := by
  unfold descriptions
  congr 1
  apply Text.sortedDistinct_congr
  intro x
  simp only [List.mem_filter, List.mem_map, h]

theorem mergeEnvVar_congr (key : String) (vs ws : Offered EnvVar) (h : Alike vs ws) :
    mergeEnvVar key vs = mergeEnvVar key ws := by
  have hshown := (h.filterMap shownDefault).mem_entries id
  have hdefault := agreed_congr (conflict_congr hshown "env var default" key) hshown
  have hdescription := descriptions_congr (h.mem_artifacts EnvVar.description)
  have hrequired := h.any EnvVar.required
  have hsecret := h.any EnvVar.secret
  have hnodes := sortedDistinct_map_congr (h.mem_entries EnvVar.key) Entry.nodeId
  simp only [mergeEnvVar, nodes, hdefault, hdescription, hrequired, hsecret, hnodes]

theorem mergeScript_congr (name : String) (ss ts : Offered Script) (h : Alike ss ts) :
    mergeScript name ss = mergeScript name ts := by
  have hentries := h.mem_entries Script.command
  have hcommand := agreed_congr (conflict_congr hentries "script" name) hentries
  have hdescription : descriptions (ss.filterMap (·.2.description)) =
      descriptions (ts.filterMap (·.2.description)) := by
    apply descriptions_congr
    intro d
    have hd := h.mem_artifacts Script.description (some d)
    simpa only [List.mem_map, List.mem_filterMap] using hd
  have hnodes := sortedDistinct_map_congr hentries Entry.nodeId
  simp only [mergeScript, nodes, hcommand, hdescription, hnodes]

theorem mergeDependency_congr (name : String) (ds es : Offered Dependency) (h : Alike ds es) :
    mergeDependency name ds = mergeDependency name es := by
  have hentries := h.mem_entries trimmedVersion
  have hversion := agreed_congr (conflict_congr hentries "dependency version" name) hentries
  have hdev := h.all Dependency.dev
  have hnodes := sortedDistinct_map_congr hentries Entry.nodeId
  simp only [mergeDependency, nodes, hversion, hdev, hnodes]

/-! ## Paths and documents -/

theorem mem_pathEntries_congr {cs ds : List Contribution} (h : SameArtifacts cs ds)
    (includeDocs : Bool) (e : String × Entry) :
    e ∈ pathEntries cs includeDocs ↔ e ∈ pathEntries ds includeDocs := by
  have hfiles := (Alike.offered h.files).mem_map
    (fun t => (t.2.2.path, (⟨t.1, t.2.1, t.2.2.content⟩ : Entry))) e
  have hdocs := (Alike.offered h.docs).mem_map
    (fun t => (t.2.2.path, (⟨t.1, t.2.1, t.2.2.render⟩ : Entry))) e
  unfold pathEntries
  cases includeDocs with
  | false =>
    rw [if_neg Bool.false_ne_true, if_neg Bool.false_ne_true, List.append_nil, List.append_nil]
    exact hfiles
  | true =>
    rw [if_pos rfl, if_pos rfl, List.mem_append, List.mem_append]
    exact or_congr hfiles hdocs

theorem docIndex_congr {cs ds : List Contribution} (h : SameOffers cs ds Output.docs)
    (origins : Table (List String)) : docIndex cs origins = docIndex ds origins := by
  have hdocs : ∀ d, d ∈ (offered cs (·.docs)).map (·.2) ↔ d ∈ (offered ds (·.docs)).map (·.2) :=
    (Alike.offered h).mem_artifacts id
  have hpaths := sortedDistinct_map_congr hdocs Doc.path
  have htitles (path : String) :
      Text.sortedDistinct
          ((((offered cs (·.docs)).map (·.2)).filter (·.path = path)).map (·.title)) =
        Text.sortedDistinct
          ((((offered ds (·.docs)).map (·.2)).filter (·.path = path)).map (·.title)) := by
    apply sortedDistinct_map_congr
    intro d
    rw [List.mem_filter, List.mem_filter, hdocs d]
  simp only [docIndex, hpaths, htitles]

end Merge

/-! ## Trees -/

namespace ProjectTree
open Merge

theorem ofContributions_congr {cs ds : List Contribution} (h : SameArtifacts cs ds)
    (includeDocs : Bool) : ofContributions cs includeDocs = ofContributions ds includeDocs := by
  have hpaths : byKey Prod.fst mergePath (pathEntries cs includeDocs) =
      byKey Prod.fst mergePath (pathEntries ds includeDocs) := by
    have hmem := mem_pathEntries_congr h includeDocs
    refine byKey_congr ?_ ?_
    · intro k
      simp only [List.mem_map, hmem]
    · intro k
      apply mergePath_congr
      intro e
      rw [List.mem_filter, List.mem_filter, hmem e]
  have henvVars : byKey (·.2.key) mergeEnvVar (offered cs (·.envVars)) =
      byKey (·.2.key) mergeEnvVar (offered ds (·.envVars)) :=
    byKey_offered_congr mergeEnvVar_congr (Alike.offered h.envVars)
  have hscripts : byKey (·.2.name) mergeScript (offered cs (·.scripts)) =
      byKey (·.2.name) mergeScript (offered ds (·.scripts)) :=
    byKey_offered_congr mergeScript_congr (Alike.offered h.scripts)
  have hdependencies : byKey (·.2.name) mergeDependency (offered cs (·.dependencies)) =
      byKey (·.2.name) mergeDependency (offered ds (·.dependencies)) :=
    byKey_offered_congr mergeDependency_congr (Alike.offered h.dependencies)
  have hdocs := docIndex_congr h.docs
  simp only [ofContributions, hpaths, henvVars, hscripts, hdependencies, hdocs]

/-- Neither the order of contributions, nor the order or repetition of items in an output, nor how
an output is split over contributions makes a difference to the tree or to the fault. -/
theorem ofContributions_orderFree (includeDocs : Bool) :
    (∀ cs ds, SameArtifacts cs ds →
      ofContributions cs includeDocs = ofContributions ds includeDocs) ∧
    (∀ cs ds : List Contribution, cs.Perm ds →
      ofContributions cs includeDocs = ofContributions ds includeDocs) ∧
    (∀ (o : Output) (parts : List Output), o.SplitsInto parts →
      ∀ (cs ds : List Contribution) (nodeId pluginId : String),
        ofContributions (cs ++ ⟨nodeId, pluginId, o⟩ :: ds) includeDocs =
          ofContributions (cs ++ parts.map (⟨nodeId, pluginId, ·⟩) ++ ds) includeDocs) := by
  refine ⟨?_, ?_, ?_⟩
  · intro cs ds h
    exact ofContributions_congr h includeDocs
  · intro cs ds h
    exact ofContributions_congr (.of_perm h) includeDocs
  · intro o parts h cs ds nodeId pluginId
    exact ofContributions_congr (.of_parts h cs ds nodeId pluginId) includeDocs

/-- Two nodes that disagree about a file; then one output is split and an item is repeated. -/
theorem ofContributions_orderFree_collision :
    let a : File := { path := "a.ts", content := "1" }
    let b : File := { path := "b.ts", content := "2" }
    let c : File := { path := "a.ts", content := "3" }
    let whole : List Contribution :=
      [⟨"m", "first", { files := [a, b] }⟩, ⟨"n", "second", { files := [c] }⟩]
    let split : List Contribution :=
      [⟨"n", "second", { files := [c, c] }⟩, ⟨"m", "first", { files := [b] }⟩,
        ⟨"m", "first", { files := [a] }⟩]
    SameArtifacts whole split ∧ ofContributions whole true = ofContributions split true := by
  intro a b c whole split
  have h : SameArtifacts whole split := by
    constructor <;> intro n p x <;> simp [Contributes, whole, split]
    grind
  exact ⟨h, (ofContributions_orderFree true).1 whole split h⟩

end ProjectTree
end ProjectComposer
