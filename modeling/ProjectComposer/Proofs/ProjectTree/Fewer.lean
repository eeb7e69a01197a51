import ProjectComposer.Proofs.ProjectTree.Disputes

/-!
Fewer contributions. Among some of the contributions there are no disputes but those among all. The
tree of all keeps whatever the tree of some holds: variables with their defaults, scripts with their
commands, dependencies with their versions. What is said of a key as a whole, like a description,
may change.
-/
namespace ProjectComposer
set_option autoImplicit false

theorem Disputed.mono {cs cs' : List Contribution} (hsub : cs ⊆ cs') {docs : Bool} {topic : Topic}
    {key : String} (h : Disputed cs docs topic key) : Disputed cs' docs topic key := by
  obtain ⟨c, hc, d, hd, hpair⟩ := h
  exact ⟨c, hsub hc, d, hsub hd, hpair⟩

theorem SuppliedUnder.mono {α : Type} {cs cs' : List Contribution} (hsub : cs ⊆ cs')
    {artifacts : Output → List α} {key : α → String} {k : String} {a : α}
    (h : SuppliedUnder cs artifacts key k a) : SuppliedUnder cs' artifacts key k a := by
  obtain ⟨hk, node, c, hc, hnode, ha⟩ := h
  exact ⟨hk, node, c, hsub hc, hnode, ha⟩

/-- The entry of a larger list under the name of an entry of the smaller one. -/
theorem MergedByKey.exists_mem_of_subset {α β : Type} {cs cs' : List Contribution}
    {artifacts : Output → List α} {key : α → String} {entries entries' : List β}
    {name : β → String} {origins : β → List String}
    (h : MergedByKey cs artifacts key entries name origins)
    (h' : MergedByKey cs' artifacts key entries' name origins) (hsub : cs ⊆ cs') {b : β}
    (hb : b ∈ entries) : ∃ b' ∈ entries', name b' = name b ∧
      ∃ a, SuppliedUnder cs artifacts key (name b) a := by
  obtain ⟨a, ha⟩ := (h.mem_names_iff _).mp (List.mem_map_of_mem hb)
  obtain ⟨b', hb', hname⟩ := List.mem_map.mp ((h'.mem_names_iff _).mpr ⟨a, ha.mono hsub⟩)
  exact ⟨b', hb', hname, a, ha⟩

namespace ProjectTree
open Merge

/-- A tree has the variables, scripts and dependencies of another one, and says the same of each. -/
structure Keeps (t' t : ProjectTree) : Prop where
  envVars : ∀ v ∈ t.envVars, ∃ v' ∈ t'.envVars, v'.key = v.key ∧
    ∀ s, v.default = some s → v'.default = some s
  scripts : ∀ s ∈ t.scripts, ∃ s' ∈ t'.scripts, s'.name = s.name ∧ s'.command = s.command
  dependencies : ∀ d ∈ t.dependencies, ∃ d' ∈ t'.dependencies,
    d'.name = d.name ∧ d'.version = d.version

section Fewer
variable {cs cs' : List Contribution} {docs : Bool} {t t' : ProjectTree}

theorem keeps_of_subset (hsub : cs ⊆ cs') (h : ofContributions cs docs = .ok t)
    (h' : ofContributions cs' docs = .ok t') : t'.Keeps t := by
  obtain ⟨⟨-, henvVars, hscripts, hdependencies⟩, ht⟩ := ofContributions_eq_ok.mp h
  obtain ⟨⟨-, henvVars', hscripts', hdependencies'⟩, ht'⟩ := ofContributions_eq_ok.mp h'
  constructor
  case envVars =>
    rw [ht, ht']
    intro v hv
    obtain ⟨v', hv', hkey, -⟩ := (isKeyed_mergeEnvVar.mergedByKey henvVars).exists_mem_of_subset
      (isKeyed_mergeEnvVar.mergedByKey henvVars') hsub hv
    refine ⟨v', hv', hkey, fun s hs => ?_⟩
    have hmerges := merges_of_mergeEnvVar (isKeyed_mergeEnvVar.merge_group hv) suppliedUnder_iff
    have hmerges' := merges_of_mergeEnvVar (isKeyed_mergeEnvVar.merge_group hv') suppliedUnder_iff
    obtain ⟨a, ha, hshown⟩ := (hmerges.default_iff s).mp hs
    exact (hmerges'.default_iff s).mpr ⟨a, hkey ▸ ha.mono hsub, hshown⟩
  case scripts =>
    rw [ht, ht']
    intro s hs
    obtain ⟨s', hs', hname, a, ha⟩ := (isKeyed_mergeScript.mergedByKey hscripts).exists_mem_of_subset
      (isKeyed_mergeScript.mergedByKey hscripts') hsub hs
    have hmerges := merges_of_mergeScript (isKeyed_mergeScript.merge_group hs) suppliedUnder_iff
    have hmerges' := merges_of_mergeScript (isKeyed_mergeScript.merge_group hs') suppliedUnder_iff
    refine ⟨s', hs', hname, ?_⟩
    rw [← hmerges.command_eq a ha, ← hmerges'.command_eq a (hname ▸ ha.mono hsub)]
  case dependencies =>
    rw [ht, ht']
    intro d hd
    obtain ⟨d', hd', hname, a, ha⟩ :=
      (isKeyed_mergeDependency.mergedByKey hdependencies).exists_mem_of_subset
        (isKeyed_mergeDependency.mergedByKey hdependencies') hsub hd
    have hmerges := merges_of_mergeDependency (isKeyed_mergeDependency.merge_group hd)
      suppliedUnder_iff
    have hmerges' := merges_of_mergeDependency (isKeyed_mergeDependency.merge_group hd')
      suppliedUnder_iff
    refine ⟨d', hd', hname, ?_⟩
    rw [← hmerges.version_eq a ha, ← hmerges'.version_eq a (hname ▸ ha.mono hsub)]

end Fewer
end ProjectTree
end ProjectComposer
