import ProjectComposer.Proofs.Compilation.OneOfEach

/-!
Nodes on the side. A contract, a chat bot, notifications or quality gates that nothing is wired to
make a project larger and leave the rest of it as it was: without them the blueprint compiles as
well, to a project whose files are in the larger one with the same contents, except for the root
files, which speak of the whole.
-/
namespace ProjectComposer
set_option autoImplicit false

namespace BuiltIn

/-- The kinds whose nodes no other node takes anything from, unless it is wired to them. -/
def sideKinds : List String :=
  ["erc721-stylus", "telegram-notifications", "telegram-commands", "repo-quality-gates"]

theorem isUnneeded_of_mem_sideKinds : ∀ kind ∈ sideKinds, Job.IsUnneeded kind := by
  decide +kernel

theorem not_frontend_of_mem_sideKinds : ∀ kind ∈ sideKinds, kind ∉ Layout.frontendKinds := by
  decide +kernel

end BuiltIn

/-! ## Trees -/

namespace Job.RunsWidened
variable {j' j : Job} {added : List Node} {css' css : List (List Call)} {rs' rs : List NodeResult}
  {t' t : ProjectTree}

/-- A file that nodes of the smaller blueprint emit is in the larger project as well. -/
theorem get?_files (h : j'.RunsWidened j added css' css rs' rs) (ht' : j'.assemble rs' = .ok t')
    (ht : j.assemble rs = .ok t) {path content : String} (hroot : path ∉ RootFiles.paths)
    (hfile : t.files.get? path = some content) : t'.files.get? path = some content := by
  obtain ⟨hrecorded', -⟩ := Compiled.recorded (c := ⟨t', rs'⟩) ht'
  obtain ⟨hrecorded, -⟩ := Compiled.recorded (c := ⟨t, rs⟩) ht
  obtain ⟨node, hputs⟩ := (hrecorded.content_iff path content).mp hfile
  cases hputs with
  | node hx hemits =>
    exact (hrecorded'.content_iff path content).mpr
      ⟨_, .node (h.subset_results hx) (h.emits_iff.mpr hemits)⟩
  | root hf => exact absurd (RootFiles.path_mem_paths hf) hroot

theorem keeps (h : j'.RunsWidened j added css' css rs' rs) (ht' : j'.assemble rs' = .ok t')
    (ht : j.assemble rs = .ok t) : t'.Keeps t := by
  obtain ⟨cs', hcs', htree'⟩ := assemble_eq_ok.mp ht'
  obtain ⟨cs, hcs, htree⟩ := assemble_eq_ok.mp ht
  obtain ⟨-, merged', whole', hmerged', hwhole', rfl⟩ := tree_eq_ok.mp htree'
  obtain ⟨-, merged, whole, hmerged, hwhole, rfl⟩ := tree_eq_ok.mp htree
  rw [h.resolvedSettings_eq] at hmerged'
  have hkeeps := ProjectTree.keeps_of_subset (h.subset_contributions hcs' hcs) hmerged hmerged'
  -- The root files that join the merged trees change none of these.
  rw [ProjectTree.eq_of_addFiles hwhole', ProjectTree.eq_of_addFiles hwhole]
  exact ⟨hkeeps.envVars, hkeeps.scripts, hkeeps.dependencies⟩

end Job.RunsWidened

/-! ## Blueprints -/

namespace Blueprint
variable {b : Blueprint} {before after : List Node} {n : Node}

theorem embeds_inserted (hnodes : b.nodes = before ++ after) (hne : b.nodes ≠ [])
    (hkind : n.kind ∈ BuiltIn.sideKinds)
    (huntouched : ∀ e ∈ b.edges, e.source.node ≠ n.id ∧ e.target.node ≠ n.id) :
    Embeds { b with nodes := before ++ n :: after } b [n] := by
  have hfrontend : ¬Layout.isFrontend n = true := by
    simpa [Layout.isFrontend] using BuiltIn.not_frontend_of_mem_sideKinds n.kind hkind
  have hwidens : Widens { b with nodes := before ++ n :: after } b [n] := by
    refine ⟨rfl, rfl, ?_, .refl _, by simpa using huntouched⟩
    rw [hnodes]
    exact List.perm_middle
  refine ⟨hwidens, hne, ?_, by simpa using hfrontend, fun a' a ha' ha => ?_⟩
  · simpa using BuiltIn.isUnneeded_of_mem_sideKinds n.kind hkind
  · have hfind : (before ++ n :: after).find? Layout.isFrontend =
        b.nodes.find? Layout.isFrontend := by
      rw [hnodes, List.find?_append, List.find?_cons_of_neg hfrontend, List.find?_append]
    change ((before ++ n :: after).find? Layout.isFrontend).all _ = _
    rw [hfind]
    cases hfirst : b.nodes.find? Layout.isFrontend with
    | none => rfl
    | some m => exact hwidens.usesSource_eq ha' ha (List.mem_of_find?_eq_some hfirst)

/-- A node on the side can be left out of a blueprint that compiles. What it leaves are the same
files, variables, scripts and dependencies, and the same layers without it. -/
theorem compile_inserted (hnodes : b.nodes = before ++ after) (hne : b.nodes ≠ [])
    (hfresh : n.id ∉ b.nodeIds)
    (hkind : n.kind ∈
      ["erc721-stylus", "telegram-notifications", "telegram-commands", "repo-quality-gates"])
    (huntouched : ∀ e ∈ b.edges, e.source.node ≠ n.id ∧ e.target.node ≠ n.id)
    {roots : Roots} {workers : Option Int} {trace' : Trace} {c' : Compiled}
    (h' : ({ b with nodes := before ++ n :: after } : Blueprint).compile .builtIn roots workers =
      (trace', .ok c')) :
    ∃ trace c, b.compile .builtIn roots workers = (trace, .ok c) ∧
      (∀ path content, path ∉ ["package.json", ".env.example", "README.md"] →
        c.tree.files.get? path = some content → c'.tree.files.get? path = some content) ∧
      c'.tree.Keeps c.tree ∧
      c.tree.layers = c'.tree.layers.map fun layer => layer.filter fun id => id ≠ n.id := by
  have hembeds := embeds_inserted hnodes hne hkind huntouched
  obtain ⟨trace, c, hcompile⟩ := hembeds.exists_compile h'
  obtain ⟨-, a', css', hbuilds'⟩ := exists_builds h'
  obtain ⟨-, a, css, hbuilds⟩ := exists_builds hcompile
  have hruns := hembeds.runsWidened hbuilds'.accept_eq hbuilds.accept_eq hbuilds'.finished
    hbuilds.finished
  refine ⟨trace, c, hcompile, fun path content hroot => ?_, ?_, ?_⟩
  · exact hruns.get?_files hbuilds'.assemble_eq hbuilds.assemble_eq hroot
  · exact hruns.keeps hbuilds'.assemble_eq hbuilds.assemble_eq
  · rw [Job.layers_of_assemble hbuilds'.assemble_eq, Job.layers_of_assemble hbuilds.assemble_eq]
    refine hruns.widens.layers_eq_filter ?_
    change ((before ++ n :: after).map (·.id)).filter (fun id => id ≠ n.id) = b.nodeIds
    have hold : b.nodeIds.filter (fun id => id ≠ n.id) = b.nodeIds := by
      refine List.filter_eq_self.mpr fun id hid => decide_eq_true ?_
      rintro rfl
      exact hfresh hid
    rw [← hold, nodeIds, hnodes]
    simp

/-- A bot that was put in front of a login. -/
theorem compile_inserted_bot :
    let login : Node := ⟨"login", "wallet-auth", [], none⟩
    let bot : Node := ⟨"bot", "telegram-commands", [], none⟩
    let b : Blueprint := { id := "b", nodes := [login] }
    let b' : Blueprint := { b with nodes := bot :: [login] }
    ∃ trace' c' trace c, b'.compile .builtIn = (trace', .ok c') ∧
      c'.tree.layers = [["bot", "login"]] ∧ b.compile .builtIn = (trace, .ok c) ∧
      c.tree.layers = [["login"]] ∧ c'.tree.Keeps c.tree ∧
      ∀ path content, path ∉ ["package.json", ".env.example", "README.md"] →
        c.tree.files.get? path = some content → c'.tree.files.get? path = some content := by
  intro login bot b b'
  have hplan : (b'.accept .builtIn).toOption.map (·.plan.layers) = some [["bot", "login"]] := by
    decide +kernel
  obtain ⟨a, ha, hplan⟩ := Option.map_eq_some_iff.mp hplan
  have hwritable : b'.resolvedSettings.isWritable = true := rfl
  obtain ⟨trace', c', hcompile'⟩ := exists_compile_of_agreeing (toOption_eq_some.mp ha) (by decide)
    (fun _ => hwritable) (fun _ => hwritable) (by decide +kernel) (by decide +kernel)
  have hlayers' : c'.tree.layers = [["bot", "login"]] := by
    obtain ⟨-, a', css, hbuilds⟩ := exists_builds hcompile'
    cases (toOption_eq_some.mp ha).symm.trans hbuilds.accept_eq
    exact (Job.layers_of_assemble hbuilds.assemble_eq).trans hplan
  have hnodes : b.nodes = [] ++ [login] := rfl
  obtain ⟨trace, c, hcompile, hfiles, hkeeps, hlayers⟩ := compile_inserted (n := bot) hnodes
    (by simp [b]) (by simp [b, nodeIds, bot, login]) (by simp [bot]) (by simp [b]) hcompile'
  refine ⟨trace', c', trace, c, hcompile', hlayers', hcompile, ?_, hkeeps, hfiles⟩
  rw [hlayers, hlayers']
  rfl

end Blueprint
end ProjectComposer
