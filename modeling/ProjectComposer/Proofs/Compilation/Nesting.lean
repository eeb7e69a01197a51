import ProjectComposer.Proofs.BuiltIn.Places
import ProjectComposer.Proofs.Compilation.Contents
import ProjectComposer.Proofs.Plugin.Registration

/-!
Files and directories of one name in a compiled project. Collisions are decided between equal final
paths, so a path that goes on from the path of a file is let through: the project holds such a pair
exactly if its nodes emit one, or emit something below a root file, and only without one can the
project be written to a disk. The built-in plugins emit no such pair, whatever their options, as
long as the directories of the parts are not named like files.
-/
namespace ProjectComposer
set_option autoImplicit false

open ProjectComposer.Path (IsAbove NestFree)

/-! ## Pairs -/

/-- The name of a file is wanted for a directory: by two emissions, or below a root file. -/
inductive Compiled.Nests (c : Compiled) (j : Job) : Prop
  | emitted {x y : NodeResult} (hx : x ∈ c.results) (hy : y ∈ c.results)
      {p content q content' : String} (hp : x.Emits j p content) (hq : y.Emits j q content')
      (habove : IsAbove p q)
  | root {f : File} {x : NodeResult}
      (hf : f ∈ RootFiles.files c.tree j.blueprint.resolvedSettings j.blueprint j.registry)
      (hx : x ∈ c.results) {path content : String} (hpath : x.Emits j path content)
      (habove : IsAbove f.path path)

/-- Nothing is above a root file. -/
theorem RootFiles.not_isAbove {t : ProjectTree} {s : Settings} {b : Blueprint} {r : Registry}
    {f : File} (hf : f ∈ files t s b r) (path : String) : ¬IsAbove path f.path := by
  have hslash : '/' ∉ f.path.toList := by
    rcases exists_path_eq_iff.mp ⟨f, hf, rfl⟩ with hpath | hpath | ⟨-, hpath⟩
    · rw [hpath]
      decide +kernel
    · rw [hpath]
      decide +kernel
    · rw [hpath]
      decide +kernel
  exact fun habove => hslash habove.slash_mem

theorem Compiled.nestFree_iff {c : Compiled} {j : Job}
    (h : (c.Puts j).Recorded c.tree.files c.tree.origins) :
    NestFree c.tree.files.keys ↔ ¬c.Nests j := by
  have hmem {path : String} : path ∈ c.tree.files.keys ↔
      ∃ node content, c.Puts j node path content := h.mem_paths_iff
  constructor
  · intro hfree hnests
    cases hnests with
    | emitted hx hy hp hq habove =>
      exact hfree _ (hmem.mpr ⟨_, _, .node hx hp⟩) _ (hmem.mpr ⟨_, _, .node hy hq⟩) habove
    | root hf hx hpath habove =>
      exact hfree _ (hmem.mpr ⟨_, _, .root hf⟩) _ (hmem.mpr ⟨_, _, .node hx hpath⟩) habove
  · intro hnests p hp q hq habove
    obtain ⟨_, _, hp⟩ := hmem.mp hp
    obtain ⟨_, _, hq⟩ := hmem.mp hq
    cases hq with
    | root hf => exact RootFiles.not_isAbove hf p habove
    | node hy hemits =>
      cases hp with
      | node hx hemits' => exact hnests (.emitted hx hy hemits' hemits habove)
      | root hf => exact hnests (.root hf hy hemits habove)

/-! ## Built-in projects -/

namespace Registry

theorem mem_builtIn {p : Plugin} (h : p ∈ builtIn.plugins) : p ∈ BuiltIn.plugins :=
  (mem_of_mem_registerAll h).resolve_left List.not_mem_nil

theorem mem_orBuiltIn {r : Registry} (hr : ∀ p ∈ r.plugins, p ∈ BuiltIn.plugins) {p : Plugin}
    (h : p ∈ r.orBuiltIn.plugins) : p ∈ BuiltIn.plugins := by
  unfold orBuiltIn at h
  split at h
  · exact mem_builtIn h
  · exact hr p h

end Registry

theorem Job.layout_of_run {j : Job} {asked : Option Int} {trace : Trace} {rs : List NodeResult}
    (h : j.run asked = (trace, .ok rs)) : ∀ context ∈ trace.calls, context.layout = j.layout := by
  obtain ⟨-, cs, rfl, hcompleted⟩ := run_eq_ok.mp h
  intro context hcontext
  obtain ⟨c, hc, rfl⟩ := List.mem_map.mp hcontext
  obtain ⟨id, -, seen, hcall⟩ := exists_mem_of_forall₂ hcompleted.calls hc
  obtain ⟨-, -, config, -, hcontext⟩ := call_eq_ok.mp hcall
  rw [hcontext]
  rfl

/-- Whatever a node of a built-in kind emits has the path of a file. -/
theorem NodeResult.Emits.isFile {j : Job} (hplugins : ∀ p ∈ j.registry.plugins, p ∈ BuiltIn.plugins)
    (hlayout : BuiltIn.InDirectories j.layout) {asked : Option Int} {trace : Trace}
    {rs : List NodeResult} (hrun : j.run asked = (trace, .ok rs)) {x : NodeResult} (hx : x ∈ rs)
    {path content : String} (h : x.Emits j path content) : BuiltIn.IsFile path := by
  obtain ⟨context, hcontext, -, n, p, returned, -, hkind, hp, hreturned, haccept⟩ :=
    exists_mem_of_forall₂ (Job.returned_of_run hrun) hx
  obtain ⟨s, hkeeps, hfiles⟩ := BuiltIn.exists_footprint (hplugins p (List.mem_of_find?_eq_some hp))
  -- The output is the one that its plugin's footprint is about.
  have hwithin : x.output.Within (s context.layout) := by
    rcases hkeeps n context with ⟨o, ho, hwithin⟩ | ⟨-, -, hoverlong⟩
    · obtain rfl := Except.ok.inj (ho.symm.trans hreturned)
      exact Except.ok.inj haccept ▸ hwithin
    · cases hoverlong.symm.trans hreturned
  rw [Job.layout_of_run hrun context hcontext] at hwithin
  have hs := hfiles j.layout hlayout
  cases h with
  | @file p' f path hp' hf hpath =>
    obtain rfl : p = p' := Option.some.inj (hp.symm.trans (hkind ▸ hp'))
    have hsite : (f.mapped p.mappings).path = (f.site.mapped p.mappings).path :=
      congrArg Site.path (File.site_mapped f p.mappings)
    have hplace : BuiltIn.IsFile (f.mapped p.mappings).path :=
      hsite ▸ hs.site f.site (hwithin.site_mem f hf)
    exact BuiltIn.isFile_outputPath hlayout hplace hpath
  | @doc d path hdocs hd hpath =>
    have hdoc := hs.doc d.path (hwithin.path_mem d hd)
    rw [hdoc.isPlain.normalize_eq] at hpath
    exact Except.ok.inj hpath ▸ hdoc

theorem RootFiles.isFile {docs : Bool} {path : String}
    (h : path = "package.json" ∨ path = ".env.example" ∨ docs = true ∧ path = "README.md") :
    BuiltIn.IsFile path := by
  rcases h with rfl | rfl | ⟨-, rfl⟩ <;> decide +kernel

/-! ## Compiled projects -/

/-- The paths of a compiled project are distinct, but nothing else keeps them apart: the project has
no path above another one exactly if no two emissions are so and none is below a root file. These
are the projects that can be written to a disk, whatever the order of the files. Those of built-in
plugins are among them where the directories of the parts are not named like files. -/
theorem Blueprint.compile_nestFree_iff {b : Blueprint} {r : Registry} {roots : Roots}
    {workers : Option Int} {trace : Trace} {c : Compiled}
    (h : b.compile r roots workers = (trace, .ok c)) :
    c.tree.files.keys.Pairwise (· < ·) ∧
    (∃ a, b.accept r = .ok a ∧
      (NestFree c.tree.files.keys ↔ ¬c.Nests (b.job r.orBuiltIn a roots))) ∧
    (∀ order : Table String, order.Perm c.tree.files → (NestFree c.tree.files.keys ↔
      ∃ full, Disk.empty.Stores order full ∧
        ∀ path, full.content path = c.tree.files.get? path)) ∧
    ((∀ p ∈ r.plugins, p ∈ BuiltIn.plugins) → BuiltIn.IsDirectory roots.frontend →
      BuiltIn.IsDirectory roots.contracts → NestFree c.tree.files.keys) := by
  obtain ⟨a, haccept, hrun, hassemble⟩ := compile_eq_ok.mp h
  obtain ⟨hrecorded, hsorted⟩ := Compiled.recorded hassemble
  have hnodup : c.tree.files.keys.Nodup := hsorted.imp fun hlt => ne_of_lt hlt
  refine ⟨hsorted, ⟨a, haccept, Compiled.nestFree_iff hrecorded⟩, ?_, ?_⟩
  · exact fun order horder => Disk.exists_stores_empty_iff hnodup horder
  · intro hplugins hfrontend hcontracts
    have hlayout : BuiltIn.InDirectories (b.job r.orBuiltIn a roots).layout :=
      BuiltIn.inDirectories_ofNodes hfrontend hcontracts b.nodes (Layout.usesSource a.configs)
    refine BuiltIn.nestFree_of_isFile fun path hpath => ?_
    rcases (Compiled.mem_paths_iff_emits hrecorded).mp hpath with ⟨x, hx, content, hemits⟩ | hroot
    · exact hemits.isFile (fun p hp => Registry.mem_orBuiltIn hplugins hp) hlayout hrun hx
    · exact RootFiles.isFile hroot

/-- A chat bot with a login, made by built-in plugins in the default directories. -/
theorem Blueprint.compile_nestFree_chatBot :
    let b : Blueprint := {
      id := "bot"
      nodes := [⟨"login", "wallet-auth", [], none⟩, ⟨"bot", "telegram-commands", [], none⟩] }
    ∃ trace c, b.compile .builtIn = (trace, .ok c) ∧ c.tree.files.keys =
        [".env.example", "README.md", "package.json", "src/lib/auth/wallet-auth.ts",
          "src/lib/telegram/bot-client.ts", "src/lib/telegram/composers/commands.ts",
          "src/lib/telegram/webhook/route.ts"] ∧
      NestFree c.tree.files.keys ∧ ∃ full, Disk.empty.Stores c.tree.files full ∧
        ∀ path, full.content path = c.tree.files.get? path := by
  intro b
  have hkeys : (b.compile .builtIn).2.toOption.map (·.tree.files.keys) = some
      [".env.example", "README.md", "package.json", "src/lib/auth/wallet-auth.ts",
        "src/lib/telegram/bot-client.ts", "src/lib/telegram/composers/commands.ts",
        "src/lib/telegram/webhook/route.ts"] := by
    decide +kernel
  obtain ⟨trace, c, hcompile, hkeys⟩ := exists_compile_eq_ok hkeys
  obtain ⟨-, -, hstores, hbuiltIn⟩ := compile_nestFree_iff hcompile
  have hfree : NestFree c.tree.files.keys :=
    hbuiltIn (fun _ => Registry.mem_builtIn) (by decide +kernel) (by decide +kernel)
  exact ⟨trace, c, hcompile, hkeys, hfree, (hstores _ (.refl _)).mp hfree⟩

/-- A node writes a file where another one wants a directory, and the compilation succeeds. -/
theorem Blueprint.compile_nests :
    let writer (id : String) (path : String) : Plugin := {
      card := { id := id, name := id, field := .app }
      generate := fun _ _ => { result := .ok (.output { files := [⟨path, "text", none⟩] }) } }
    let r : Registry := .ofPlugins [writer "notes" "notes", writer "guide" "notes/start.md"]
    let b : Blueprint := {
      id := "b", nodes := [⟨"n", "notes", [], none⟩, ⟨"g", "guide", [], none⟩] }
    ∃ trace c, b.compile r = (trace, .ok c) ∧ "notes" ∈ c.tree.files.keys ∧
      "notes/start.md" ∈ c.tree.files.keys ∧ ¬NestFree c.tree.files.keys ∧
      ¬∃ full, Disk.empty.Stores c.tree.files full := by
  intro writer r b
  have hkeys : (b.compile r).2.toOption.map (·.tree.files.keys) = some
      [".env.example", "README.md", "notes", "notes/start.md", "package.json"] := by
    decide +kernel
  obtain ⟨trace, c, hcompile, hkeys⟩ := exists_compile_eq_ok hkeys
  have hnested : ¬NestFree c.tree.files.keys := by
    rw [hkeys]
    decide +kernel
  refine ⟨trace, c, hcompile, by simp [hkeys], by simp [hkeys], hnested, fun hstores => ?_⟩
  exact hnested (Disk.exists_stores_iff.mp hstores).1

end ProjectComposer
