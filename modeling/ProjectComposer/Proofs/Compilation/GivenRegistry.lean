import ProjectComposer.Proofs.Compilation.Ending

/-!
The registry of a compilation. Validation goes by the registry that it is given, stage by stage, and
compilation by what validation found, as long as there is a plugin in that registry. One without
plugins is not told apart from none: the built-in registry is taken in its place, and nodes are
accepted whose kinds are registered there alone.
-/
namespace ProjectComposer
set_option autoImplicit false

theorem Registry.orBuiltIn_of_ne {r : Registry} (h : r.plugins ≠ []) : r.orBuiltIn = r := by
  rw [orBuiltIn, if_neg]
  rwa [List.isEmpty_iff]

theorem Registry.orBuiltIn_of_eq {r : Registry} (h : r.plugins = []) : r.orBuiltIn = .builtIn := by
  rw [orBuiltIn, if_pos]
  rwa [List.isEmpty_iff]

theorem Registry.plugins_builtIn_ne_nil : Registry.builtIn.plugins ≠ [] := by
  rw [ne_eq, ← List.isEmpty_iff]
  decide +kernel

namespace Blueprint
variable {b : Blueprint} {r : Registry} {f : Failure}

/-! ## Stages on one registry -/

/-- The first of the three stages that fails on a registry, each run after those before it. -/
inductive StageFails (b : Blueprint) (r : Registry) : Failure → Prop
  | configs {issues : Fault} (h : b.validateConfigs r = .error issues) :
      b.StageFails r (.fault issues)
  | graph {configs : Table Config} {f : Failure} (hconfigs : b.validateConfigs r = .ok configs)
      (h : b.graph r = .error f) : b.StageFails r f
  | plan {configs : Table Config} {g : Graph} {f : Failure}
      (hconfigs : b.validateConfigs r = .ok configs) (hgraph : b.graph r = .ok g)
      (h : g.plan = .error f) : b.StageFails r f

theorem validated_eq_error : b.validated r = .error f ↔ b.StageFails r f := by
  unfold validated
  simp only [bind_eq_error, mapError_eq_error, mapError_eq_ok, pure_ne_error, and_false,
    exists_false, or_false]
  constructor
  · rintro (⟨issues, h, rfl⟩ | ⟨configs, hconfigs, h | ⟨g, hgraph, h⟩⟩)
    · exact .configs h
    · exact .graph hconfigs h
    · exact .plan hconfigs hgraph h
  · intro h
    cases h with
    | configs h => exact .inl ⟨_, h, rfl⟩
    | graph hconfigs h => exact .inr ⟨_, hconfigs, .inl h⟩
    | plan hconfigs hgraph h => exact .inr ⟨_, hconfigs, .inr ⟨_, hgraph, h⟩⟩

/-- A node of an unregistered kind makes the structure invalid, if the configs are not already. -/
theorem exists_stageFails (h : ∃ n ∈ b.nodes, r.get? n.kind = none) : ∃ f, b.StageFails r f := by
  obtain ⟨n, hn, hkind⟩ := h
  cases haccept : b.validated r with
  | error f => exact ⟨f, validated_eq_error.mp haccept⟩
  | ok a =>
    have hgraph := (validated_eq_ok.mp haccept).2.1
    have hkinds := (findings_eq_nil.mp (graph_eq_ok.mp hgraph).1).2.2.1
    obtain ⟨p, hp⟩ := kindFindings_eq_nil.mp hkinds n hn
    rw [hkind] at hp
    cases hp

/-! ## Given registries -/

/-- With a plugin in its registry a blueprint is validated by that registry, with the result or the
failure of its stages, and no kind that is not in it is compiled. Without a plugin the built-in
registry is the one that counts. -/
theorem compile_givenRegistry (b : Blueprint) (r : Registry) :
    (r.plugins ≠ [] →
      (∀ a, b.accept r = .ok a ↔ b.validateConfigs r = .ok a.configs ∧ b.graph r = .ok a.graph ∧
        a.graph.plan = .ok a.plan) ∧
      (∀ f, b.accept r = .error f ↔ b.StageFails r f) ∧
      ((∃ n ∈ b.nodes, r.get? n.kind = none) → ∃ f, b.accept r = .error f ∧
        ∀ roots workers, b.compile r roots workers = ({}, .error f))) ∧
    (r.plugins = [] → b.accept r = b.accept .builtIn ∧
      ∀ roots workers, b.compile r roots workers = b.compile .builtIn roots workers) := by
  constructor
  · intro hr
    have haccept : b.accept r = b.validated r := by rw [accept, Registry.orBuiltIn_of_ne hr]
    refine ⟨fun a => ?_, fun f => ?_, fun hunregistered => ?_⟩
    · rw [haccept, validated_eq_ok]
    · rw [haccept, validated_eq_error]
    · obtain ⟨f, hf⟩ := exists_stageFails hunregistered
      have hrefused : b.accept r = .error f := haccept.trans (validated_eq_error.mpr hf)
      exact ⟨f, hrefused, compile_of_refused hrefused⟩
  · intro hr
    have hsame : r.orBuiltIn = Registry.builtIn.orBuiltIn := by
      rw [Registry.orBuiltIn_of_eq hr, Registry.orBuiltIn_of_ne Registry.plugins_builtIn_ne_nil]
    have haccept : b.accept r = b.accept .builtIn := by rw [accept, accept, hsame]
    refine ⟨haccept, fun roots workers => ?_⟩
    rw [compile, compile, haccept, hsame]

/-- A registry of one plugin, and a node of a kind that only the built-in registry has; without the
plugin the registry is no longer the one that counts. -/
theorem compile_givenRegistry_unregistered :
    let echo : Plugin := {
      card := { id := "echo", name := "Echo", field := .app }
      generate := fun _ _ => { result := .ok (.output {}) } }
    let b : Blueprint := {
      id := "demo", nodes := [⟨"e", "echo", [], none⟩, ⟨"w", "wallet-auth", [], none⟩] }
    let r : Registry := .ofPlugins [echo]
    r.plugins ≠ [] ∧ (∃ n ∈ b.nodes, r.get? n.kind = none) ∧
      (∃ f, b.accept r = .error f ∧ b.StageFails r f ∧
        ∀ roots workers, b.compile r roots workers = ({}, .error f)) ∧
      b.accept {} = b.accept .builtIn := by
  intro echo b r
  have hr : r.plugins ≠ [] := List.cons_ne_nil _ _
  have hunregistered : ∃ n ∈ b.nodes, r.get? n.kind = none :=
    ⟨⟨"w", "wallet-auth", [], none⟩, by simp [b], rfl⟩
  obtain ⟨-, herror, hcompile⟩ := (compile_givenRegistry b r).1 hr
  obtain ⟨f, hf, hended⟩ := hcompile hunregistered
  have hempty : b.accept {} = b.accept .builtIn := ((compile_givenRegistry b {}).2 rfl).1
  exact ⟨hr, hunregistered, ⟨f, hf, (herror f).mp hf, hended⟩, hempty⟩

/-- A registry without plugins refuses every kind, and yet a node of a built-in kind is compiled. -/
theorem compile_givenRegistry_empty :
    let b : Blueprint := { id := "b", nodes := [⟨"w", "wallet-auth", [], none⟩] }
    let r : Registry := {}
    b.graph r = .error (.fault (.ofFindings [(Finding.unknownKind "w" "wallet-auth").diagnostic])) ∧
      (∃ a, b.accept r = .ok a ∧ a.plan.layers = [["w"]]) ∧
      ∃ trace c, b.compile r = (trace, .ok c) ∧ c.tree.files.keys =
        [".env.example", "README.md", "package.json", "src/lib/auth/wallet-auth.ts"] := by
  intro b r
  have hgraph : b.graph r =
      .error (.fault (.ofFindings [(Finding.unknownKind "w" "wallet-auth").diagnostic])) := by
    decide +kernel
  have hlayers : (b.accept r).toOption.map (·.plan.layers) = some [["w"]] := by decide +kernel
  have hkeys : (b.compile r).2.toOption.map (·.tree.files.keys) = some
      [".env.example", "README.md", "package.json", "src/lib/auth/wallet-auth.ts"] := by
    decide +kernel
  obtain ⟨a, ha, hlayers⟩ := Option.map_eq_some_iff.mp hlayers
  obtain ⟨c, hc, hkeys⟩ := Option.map_eq_some_iff.mp hkeys
  exact ⟨hgraph, ⟨a, toOption_eq_some.mp ha, hlayers⟩, _, c,
    Prod.ext rfl (toOption_eq_some.mp hc), hkeys⟩

end Blueprint
end ProjectComposer
