import ProjectComposer.Proofs.Compilation.OneOfEach

/-!
Order in a blueprint. In whatever order the nodes and the edges of a blueprint are listed, the
built-in plugins make the same project of it: the same files from the same nodes and the same
entries, and layers of the same nodes. Only the overview lists the components as the blueprint does,
and only where frontends say different things of the directory for sources does it matter which of
them comes first.
-/
namespace ProjectComposer
set_option autoImplicit false

/-! ## Recorded placements -/

/-- Where the same nodes put anything at the same paths, paths and origins are the same. -/
theorem Placement.Recorded.origins_eq {P' P : Placement} {files' files : Table String}
    {origins' origins : Table (List String)} (h' : P'.Recorded files' origins')
    (h : P.Recorded files origins) (hsorted' : files'.keys.Pairwise (· < ·))
    (hsorted : files.keys.Pairwise (· < ·))
    (hnodes : ∀ node path, (∃ content, P' node path content) ↔ ∃ content, P node path content) :
    files'.keys = files.keys ∧ origins' = origins := by
  have hpaths : files'.keys = files.keys := by
    refine Text.ListsInOrder.unique ⟨hsorted', fun _ => h'.mem_paths_iff⟩ ⟨hsorted, fun _ => ?_⟩
    simp only [h.mem_paths_iff, hnodes]
  have horigins : origins'.keys = origins.keys := by rw [h'.paths_eq, h.paths_eq, hpaths]
  refine ⟨hpaths, Table.ext horigins (h'.paths_eq ▸ h'.nodup_paths) fun path hpath => ?_⟩
  obtain ⟨nodes', hnodes'⟩ := Table.mem_keys_iff_get?.mp hpath
  obtain ⟨nodes, hget⟩ := Table.mem_keys_iff_get?.mp (horigins ▸ hpath)
  have hlists := h'.listsInOrder hnodes'
  simp only [hnodes] at hlists
  rw [hnodes', hget, hlists.unique (h.listsInOrder hget)]

/-! ## Root files -/

namespace RootFiles

/-- The lines of the overview above the components. -/
def linesAbove (s : Settings) : List String :=
  ["# " ++ s.project.name, ""] ++
  (match s.project.description with
    | none => []
    | some d => if d = "" then [] else [d, ""]) ++
  (match s.network with
    | none => []
    | some n => [networkLine n, ""]) ++
  ["## Components", ""]

/-- The lines of the overview below the components. -/
def linesBelow (t : ProjectTree) : List String :=
  [""] ++
  listing ["## Scripts", ""] (t.scripts.map scriptLine) ++
  listing ["## Environment", "", "See `.env.example`.", ""] (t.envVars.map envLine) ++
  listing ["## Documentation", ""] (t.docs.map docLine)

theorem readmeLines_eq (t : ProjectTree) (s : Settings) (b : Blueprint) (r : Registry) :
    readmeLines t s b r = linesAbove s ++ b.nodes.map (componentLine r) ++ linesBelow t := by
  cases hdescription : s.project.description with
  | none =>
    cases hnetwork : s.network with
    | none => simp [readmeLines, linesAbove, linesBelow, hdescription, hnetwork]
    | some n => simp [readmeLines, linesAbove, linesBelow, hdescription, hnetwork]
  | some d =>
    cases hnetwork : s.network with
    | none => simp [readmeLines, linesAbove, linesBelow, hdescription, hnetwork]
    | some n => simp [readmeLines, linesAbove, linesBelow, hdescription, hnetwork]

end RootFiles

/-- Two trees with the same entries. -/
structure ProjectTree.SameEntries (t' t : ProjectTree) : Prop where
  envVars_eq : t'.envVars = t.envVars
  scripts_eq : t'.scripts = t.scripts
  docs_eq : t'.docs = t.docs
  dependencies_eq : t'.dependencies = t.dependencies

theorem ProjectTree.SameEntries.eq {t' t : ProjectTree} (h : t'.SameEntries t) :
    t' = { t with files := t'.files, origins := t'.origins, layers := t'.layers } := by
  obtain ⟨henvVars, hscripts, hdocs, hdependencies⟩ := h
  rw [← henvVars, ← hscripts, ← hdocs, ← hdependencies]

namespace RootFiles
variable {t' t : ProjectTree} {b' b : Blueprint} {s : Settings} {r : Registry} {f : File}

theorem mem_files : f ∈ files t s b r ↔ f = ⟨"package.json", packageJson t s, none⟩ ∨
    f = ⟨".env.example", envExample t s, none⟩ ∨
    s.generateDocs = true ∧ f = ⟨"README.md", readme t s b r, none⟩ := by
  unfold files
  cases s.generateDocs with
  | false => simp
  | true => simp

/-- Only the overview reads the blueprint. -/
theorem mem_files_of_ne (hf : f.path ≠ "README.md") :
    f ∈ files t s b' r ↔ f ∈ files t s b r := by
  have hother (b : Blueprint) : f ≠ ⟨"README.md", readme t s b r, none⟩ := by
    rintro rfl
    exact hf rfl
  simp only [mem_files, hother, and_false, or_false]

theorem content_of_mem_files (hf : f ∈ files t s b r) (hpath : f.path = "README.md") :
    f.content = Text.joinTexts "\n"
      (linesAbove s ++ b.nodes.map (componentLine r) ++ linesBelow t) := by
  rcases mem_files.mp hf with rfl | rfl | ⟨-, rfl⟩
  · exact absurd (show "package.json" = "README.md" from hpath) (by decide)
  · exact absurd (show ".env.example" = "README.md" from hpath) (by decide)
  · rw [← readmeLines_eq]
    rfl

theorem files_congr (hnodes : b'.nodes = b.nodes) : files t s b' r = files t s b r := by
  unfold files readme readmeLines
  rw [hnodes]

end RootFiles

/-! ## Trees -/

namespace Job.RunsWidened
variable {j' j : Job} {css' css : List (List Call)} {rs' rs : List NodeResult} {t' t : ProjectTree}

theorem mem_results (h : j'.RunsWidened j [] css' css rs' rs) {x : NodeResult} :
    x ∈ rs' ↔ x ∈ rs := by
  constructor
  · intro hx
    have hid : x.nodeId ∈ j'.blueprint.nodeIds := h.finished'.nodeId_mem hx
    exact (h.mem_results_iff (h.widens.blueprint.perm_nodeIds.mem_iff.mp hid)).mp hx
  · exact fun hx => h.subset_results hx

theorem sameEntries (h : j'.RunsWidened j [] css' css rs' rs) (ht' : j'.assemble rs' = .ok t')
    (ht : j.assemble rs = .ok t) : t'.SameEntries t := by
  obtain ⟨cs', hcs', htree'⟩ := assemble_eq_ok.mp ht'
  obtain ⟨cs, hcs, htree⟩ := assemble_eq_ok.mp ht
  obtain ⟨-, merged', whole', hmerged', hwhole', rfl⟩ := tree_eq_ok.mp htree'
  obtain ⟨-, merged, whole, hmerged, hwhole, rfl⟩ := tree_eq_ok.mp htree
  have hmem (c : Contribution) : c ∈ cs' ↔ c ∈ cs := by
    rw [mem_iff_of_forall₂_ok hcs', mem_iff_of_forall₂_ok hcs]
    simp only [h.contribution_eq, h.mem_results]
  rw [h.resolvedSettings_eq, ProjectTree.ofContributions_congr (.of_mem hmem), hmerged] at hmerged'
  obtain rfl := Except.ok.inj hmerged'
  rw [ProjectTree.eq_of_addFiles hwhole', ProjectTree.eq_of_addFiles hwhole]
  exact ⟨rfl, rfl, rfl, rfl⟩

/-- Of the root files of both trees only the overviews can differ. -/
theorem mem_files_iff (h : j'.RunsWidened j [] css' css rs' rs) (ht' : j'.assemble rs' = .ok t')
    (ht : j.assemble rs = .ok t) {f : File} (hf : f.path ≠ "README.md") :
    f ∈ RootFiles.files t' j'.blueprint.resolvedSettings j'.blueprint j'.registry ↔
      f ∈ RootFiles.files t j.blueprint.resolvedSettings j.blueprint j.registry := by
  rw [RootFiles.files_of_eq (h.sameEntries ht' ht).eq, h.resolvedSettings_eq,
    h.widens.registry_eq, RootFiles.mem_files_of_ne hf]

/-- The same nodes put the same at every path but that of the overview. -/
theorem puts_iff (h : j'.RunsWidened j [] css' css rs' rs) (ht' : j'.assemble rs' = .ok t')
    (ht : j.assemble rs = .ok t) {node path content : String} (hpath : path ≠ "README.md") :
    Compiled.Puts ⟨t', rs'⟩ j' node path content ↔ Compiled.Puts ⟨t, rs⟩ j node path content := by
  rw [Compiled.puts_iff, Compiled.puts_iff]
  simp only [h.mem_results, h.emits_iff]
  refine or_congr_right (and_congr_right fun _ => exists_congr fun f => ?_)
  constructor
  · rintro ⟨hf, rfl, rfl⟩
    exact ⟨(h.mem_files_iff ht' ht hpath).mp hf, rfl, rfl⟩
  · rintro ⟨hf, rfl, rfl⟩
    exact ⟨(h.mem_files_iff ht' ht hpath).mpr hf, rfl, rfl⟩

end Job.RunsWidened

theorem Compiled.exists_puts_iff {c : Compiled} {j : Job} {node path : String} :
    (∃ content, c.Puts j node path content) ↔
      (∃ x ∈ c.results, x.nodeId = node ∧ ∃ content, x.Emits j path content) ∨
        node = Job.rootOrigin ∧ (path = "package.json" ∨ path = ".env.example" ∨
          j.blueprint.resolvedSettings.generateDocs = true ∧ path = "README.md") := by
  rw [← RootFiles.exists_path_eq_iff (t := c.tree) (b := j.blueprint) (r := j.registry)]
  simp only [Compiled.puts_iff]
  constructor
  · rintro ⟨content, ⟨x, hx, hnode, hemits⟩ | ⟨hnode, f, hf, hpath, -⟩⟩
    · exact .inl ⟨x, hx, hnode, content, hemits⟩
    · exact .inr ⟨hnode, f, hf, hpath⟩
  · rintro (⟨x, hx, hnode, content, hemits⟩ | ⟨hnode, f, hf, hpath⟩)
    · exact ⟨content, .inl ⟨x, hx, hnode, hemits⟩⟩
    · exact ⟨f.content, .inr ⟨hnode, f, hf, hpath, rfl⟩⟩

/-- Two trees with the same files and entries, except for what one file says and how the nodes of a
layer are listed. -/
structure ProjectTree.AlikeBut (t' t : ProjectTree) (path : String) : Prop
    extends t'.SameEntries t where
  paths_eq : t'.files.keys = t.files.keys
  content_eq : ∀ p, p ≠ path → t'.files.get? p = t.files.get? p
  origins_eq : t'.origins = t.origins
  layers : List.Forall₂ List.Perm t.layers t'.layers

namespace Job.RunsWidened
variable {j' j : Job} {css' css : List (List Call)} {rs' rs : List NodeResult} {t' t : ProjectTree}

theorem alikeBut (h : j'.RunsWidened j [] css' css rs' rs) (ht' : j'.assemble rs' = .ok t')
    (ht : j.assemble rs = .ok t) : t'.AlikeBut t "README.md" := by
  obtain ⟨hrecorded', hsorted'⟩ := Compiled.recorded (c := ⟨t', rs'⟩) ht'
  obtain ⟨hrecorded, hsorted⟩ := Compiled.recorded (c := ⟨t, rs⟩) ht
  obtain ⟨hpaths, horigins⟩ := hrecorded'.origins_eq hrecorded hsorted' hsorted fun node path => by
    simp only [Compiled.exists_puts_iff, h.mem_results, h.emits_iff, h.resolvedSettings_eq]
  refine ⟨h.sameEntries ht' ht, hpaths, fun path hpath => Option.ext fun content => ?_, horigins,
    ?_⟩
  · rw [hrecorded'.content_iff, hrecorded.content_iff]
    simp only [h.puts_iff ht' ht hpath]
  · rw [layers_of_assemble ht', layers_of_assemble ht]
    exact h.widens.forall₂_perm_layers

/-- Both overviews list the components, each in its own order, between the same lines. -/
theorem overviews (h : j'.RunsWidened j [] css' css rs' rs) (ht' : j'.assemble rs' = .ok t')
    (ht : j.assemble rs = .ok t) {text : String} (htext : t.files.get? "README.md" = some text) :
    ∃ above below,
      text = Text.joinTexts "\n"
        (above ++ j.blueprint.nodes.map (RootFiles.componentLine j.registry) ++ below) ∧
      t'.files.get? "README.md" = some (Text.joinTexts "\n"
        (above ++ j'.blueprint.nodes.map (RootFiles.componentLine j.registry) ++ below)) := by
  obtain ⟨hrecorded', -⟩ := Compiled.recorded (c := ⟨t', rs'⟩) ht'
  obtain ⟨hrecorded, -⟩ := Compiled.recorded (c := ⟨t, rs⟩) ht
  have hroot {j : Job} {css : List (List Call)} {rs : List NodeResult} {t : ProjectTree}
      (hfinished : j.Finished css rs)
      (hrecorded : (Compiled.Puts ⟨t, rs⟩ j).Recorded t.files t.origins) {text : String}
      (htext : t.files.get? "README.md" = some text) : text = Text.joinTexts "\n"
        (RootFiles.linesAbove j.blueprint.resolvedSettings ++
          j.blueprint.nodes.map (RootFiles.componentLine j.registry) ++ RootFiles.linesBelow t) := by
    obtain ⟨node, hputs⟩ := (hrecorded.content_iff _ _).mp htext
    rcases Compiled.puts_iff.mp hputs with ⟨x, hx, -, hemits⟩ | ⟨-, f, hf, hpath, rfl⟩
    · exact absurd (by simp [RootFiles.paths]) (hfinished.path_not_mem_paths hx hemits)
    · exact RootFiles.content_of_mem_files hf hpath
  have hpath : "README.md" ∈ t'.files.keys := by
    rw [(h.alikeBut ht' ht).paths_eq]
    exact Table.mem_keys_iff_get?.mpr ⟨text, htext⟩
  obtain ⟨text', htext'⟩ := Table.mem_keys_iff_get?.mp hpath
  refine ⟨_, _, hroot h.finished hrecorded htext, ?_⟩
  have hbelow : RootFiles.linesBelow t' = RootFiles.linesBelow t := by
    rw [(h.sameEntries ht' ht).eq]
    rfl
  rw [htext', hroot h.finished' hrecorded' htext', h.resolvedSettings_eq, h.widens.registry_eq,
    hbelow]

/-- Where the nodes are listed in the same order, the trees are the same. -/
theorem tree_eq (h : j'.RunsWidened j [] css' css rs' rs) (ht' : j'.assemble rs' = .ok t')
    (ht : j.assemble rs = .ok t) (hnodes : j'.blueprint.nodes = j.blueprint.nodes) : t' = t := by
  obtain ⟨hrecorded', hsorted'⟩ := Compiled.recorded (c := ⟨t', rs'⟩) ht'
  obtain ⟨hrecorded, hsorted⟩ := Compiled.recorded (c := ⟨t, rs⟩) ht
  have hsame := h.sameEntries ht' ht
  have hputs : Compiled.Puts ⟨t', rs'⟩ j' = Compiled.Puts ⟨t, rs⟩ j := by
    funext node path content
    rw [eq_iff_iff, Compiled.puts_iff, Compiled.puts_iff, RootFiles.files_of_eq hsame.eq,
      RootFiles.files_congr hnodes, h.resolvedSettings_eq, h.widens.registry_eq]
    simp only [h.mem_results, h.emits_iff]
  rw [hputs] at hrecorded'
  obtain ⟨hfiles, horigins⟩ := hrecorded'.unique hrecorded hsorted' hsorted
  have hlayers : t'.layers = t.layers := by
    rw [layers_of_assemble ht', layers_of_assemble ht]
    refine h.widens.layers_eq ?_
    rw [Blueprint.nodeIds, hnodes, Blueprint.nodeIds]
  rw [hsame.eq, hfiles, horigins, hlayers]

end Job.RunsWidened

/-! ## Blueprints -/

/-- What a frontend says of the directory for sources, where its config can be read. -/
def Node.sourceChoice (n : Node) : Option Bool :=
  match n.readConfig .builtIn with
  | some (.ok (.frontendScaffold o)) => some o.srcDirectory
  | _ => none

namespace Blueprint
variable {b : Blueprint} {a : Accepted}

/-- All frontends of a blueprint make one choice. -/
def AgreesOnSource (b : Blueprint) : Prop :=
  ∀ m ∈ b.nodes, ∀ n ∈ b.nodes, ∀ x ∈ m.sourceChoice, ∀ y ∈ n.sourceChoice, x = y

instance (b : Blueprint) : Decidable b.AgreesOnSource :=
  inferInstanceAs (Decidable
    (∀ m ∈ b.nodes, ∀ n ∈ b.nodes, ∀ x ∈ m.sourceChoice, ∀ y ∈ n.sourceChoice, x = y))

/-- An accepted frontend has made its choice, and by this it is decided where sources are. -/
theorem sourceChoice_eq (ha : b.accept .builtIn = .ok a) {n : Node} (hn : n ∈ b.nodes)
    (hfrontend : Layout.isFrontend n = true) :
    n.sourceChoice = some (Layout.usesSource a.configs n) := by
  have hkind : n.kind = "frontend-scaffold" := by
    simpa [Layout.isFrontend, Layout.frontendKinds] using hfrontend
  have hget : Registry.builtIn.get? n.kind = some BuiltIn.Frontend.plugin := by
    rw [hkind]
    rfl
  have hvalid : (b.job .builtIn a {}).Valid := valid_job ha
  have hids : b.nodeIds.Nodup := hvalid.nodup_nodeIds
  rw [accept_builtIn] at ha
  obtain ⟨hconfigs, -, -⟩ := validated_eq_ok.mp ha
  obtain ⟨hissues, hread⟩ := validateConfigs_eq_ok.mp hconfigs
  obtain ⟨c, hc⟩ := configIssues_eq_nil.mp hissues n hn _ hget
  obtain ⟨o, -, rfl⟩ := map_eq_ok.mp hc
  have hconfig : n.readConfig .builtIn = some (.ok (.frontendScaffold o)) := by
    rw [Node.readConfig, hget, Option.map_some, hc]
  have hfound : a.configs.get? n.id = some (.frontendScaffold o) := by
    rw [← hread, get?_configs hids]
    exact ⟨n, hn, rfl, hconfig⟩
  rw [Node.sourceChoice, hconfig, Layout.usesSource, hfound]
  rfl

theorem embeds_permuted {nodes : List Node} {edges : List Edge} (hne : b.nodes ≠ [])
    (hnodes : nodes.Perm b.nodes) (hedges : edges.Perm b.edges) (hagree : b.AgreesOnSource) :
    Embeds { b with nodes := nodes, edges := edges } b [] := by
  have hwidens : Widens { b with nodes := nodes, edges := edges } b [] :=
    ⟨rfl, rfl, hnodes, hedges, by simp⟩
  refine ⟨hwidens, hne, by simp, by simp, fun a' a ha' ha => ?_⟩
  change (nodes.find? Layout.isFrontend).all _ = _
  cases hfirst' : nodes.find? Layout.isFrontend with
  | none =>
    have hnone : b.nodes.find? Layout.isFrontend = none := by
      rw [List.find?_eq_none] at hfirst' ⊢
      exact fun n hn => hfirst' n (hnodes.mem_iff.mpr hn)
    rw [hnone]
    rfl
  | some m =>
    have hm : m ∈ b.nodes := hnodes.mem_iff.mp (List.mem_of_find?_eq_some hfirst')
    have hfrontend := List.find?_some hfirst'
    cases hfirst : b.nodes.find? Layout.isFrontend with
    | none => exact absurd hfrontend (List.find?_eq_none.mp hfirst m hm)
    | some n =>
      have hn := List.mem_of_find?_eq_some hfirst
      have hchoice := sourceChoice_eq ha hm hfrontend
      have hchoice' := sourceChoice_eq ha hn (List.find?_some hfirst)
      rw [Option.all_some, Option.all_some, hwidens.usesSource_eq ha' ha hm]
      exact hagree m hm n hn _ hchoice _ hchoice'

theorem nodes_ne_nil_of_compile {roots : Roots} {workers : Option Int} {trace : Trace}
    {c : Compiled} (h : b.compile .builtIn roots workers = (trace, .ok c)) : b.nodes ≠ [] := by
  obtain ⟨-, a, css, hbuilds⟩ := exists_builds h
  exact (findings_eq_nil.mp hbuilds.finished.valid.findings_eq).1

/-- The order of nodes and edges decides neither whether a blueprint compiles nor what becomes of
it, but for how the overview lists the components and a plan the nodes of a layer. -/
theorem compile_permuted (b : Blueprint) {nodes : List Node} {edges : List Edge}
    (hnodes : nodes.Perm b.nodes) (hedges : edges.Perm b.edges) (hagree : b.AgreesOnSource)
    (roots : Roots) (workers : Option Int) :
    let b' : Blueprint := { b with nodes := nodes, edges := edges }
    ((∃ trace' c', b'.compile .builtIn roots workers = (trace', .ok c')) ↔
      ∃ trace c, b.compile .builtIn roots workers = (trace, .ok c)) ∧
    ∀ trace' c' trace c, b'.compile .builtIn roots workers = (trace', .ok c') →
      b.compile .builtIn roots workers = (trace, .ok c) →
      c'.tree.AlikeBut c.tree "README.md" ∧
      (∀ text, c.tree.files.get? "README.md" = some text → ∃ above below,
        text = Text.joinTexts "\n"
          (above ++ b.nodes.map (RootFiles.componentLine .builtIn) ++ below) ∧
        c'.tree.files.get? "README.md" = some (Text.joinTexts "\n"
          (above ++ nodes.map (RootFiles.componentLine .builtIn) ++ below))) ∧
      (nodes = b.nodes → c'.tree = c.tree) := by
  intro b'
  have hembeds (hne : b.nodes ≠ []) : b'.Embeds b [] := embeds_permuted hne hnodes hedges hagree
  refine ⟨⟨?_, ?_⟩, ?_⟩
  · rintro ⟨trace', c', h'⟩
    have hne : b.nodes ≠ [] := fun hnil =>
      nodes_ne_nil_of_compile h' (List.perm_nil.mp (hnil ▸ hnodes))
    exact (hembeds hne).exists_compile h'
  · rintro ⟨trace, c, h⟩
    exact (hembeds (nodes_ne_nil_of_compile h)).symm.exists_compile h
  · intro trace' c' trace c h' h
    obtain ⟨-, a', css', hbuilds'⟩ := exists_builds h'
    obtain ⟨-, a, css, hbuilds⟩ := exists_builds h
    have hruns := (hembeds (nodes_ne_nil_of_compile h)).runsWidened hbuilds'.accept_eq
      hbuilds.accept_eq hbuilds'.finished hbuilds.finished
    refine ⟨hruns.alikeBut hbuilds'.assemble_eq hbuilds.assemble_eq, fun text htext => ?_, ?_⟩
    · exact hruns.overviews hbuilds'.assemble_eq hbuilds.assemble_eq htext
    · exact hruns.tree_eq hbuilds'.assemble_eq hbuilds.assemble_eq

/-- A frontend without a directory for sources, listed before its login and after it. -/
theorem compile_permuted_login :
    let login : Node := ⟨"login", "wallet-auth", [], none⟩
    let site : Node := ⟨"site", "frontend-scaffold", [("srcDirectory", .bool false)], none⟩
    let b : Blueprint := { id := "b", nodes := [login, site] }
    let b' : Blueprint := { b with nodes := [site, login], edges := [] }
    b.AgreesOnSource ∧ ∃ trace' c' trace c, b'.compile .builtIn = (trace', .ok c') ∧
      b.compile .builtIn = (trace, .ok c) ∧ c'.tree.AlikeBut c.tree "README.md" := by
  intro login site b b'
  have hagree : b.AgreesOnSource := by decide +kernel
  have haccepted : (b.accept .builtIn).toOption.isSome = true := by decide +kernel
  obtain ⟨a, ha⟩ := Option.isSome_iff_exists.mp haccepted
  have hwritable : b.resolvedSettings.isWritable = true := rfl
  obtain ⟨trace, c, h⟩ := exists_compile_of_agreeing (toOption_eq_some.mp ha) (by decide)
    (fun _ => hwritable) (fun _ => hwritable) (by decide +kernel) (by decide +kernel)
  have hnodes : [site, login].Perm b.nodes := .swap login site []
  obtain ⟨hiff, halike⟩ := compile_permuted b hnodes (.refl []) hagree {} none
  obtain ⟨trace', c', h'⟩ := hiff.mpr ⟨trace, c, h⟩
  exact ⟨hagree, trace', c', trace, c, h', h, (halike _ _ _ _ h' h).1⟩

end Blueprint
end ProjectComposer
