import ProjectComposer.Proofs.BuiltIn.Footprint
import ProjectComposer.Proofs.Execution.Visibility
import ProjectComposer.Proofs.Text.Sorted
import ProjectComposer.Proofs.Validation.Widened

/-!
What the built-in generators read. Of its context a generator reads the project and the network of
the settings, its config and two directories of the layout; the frontend scaffold also reads whether
an output is wired for authentication and for the network, and the keys of the contract addresses
wired to it. Contexts that agree on these give the same output, whatever else they hold and in
whatever order.
-/
namespace ProjectComposer
set_option autoImplicit false

/-! ## Built-in kinds -/

namespace Registry

theorem id_of_get? {r : Registry} {kind : String} {p : Plugin} (h : r.get? kind = some p) :
    p ∈ r.plugins ∧ p.id = kind :=
  ⟨List.mem_of_find?_eq_some h, by simpa using List.find?_some h⟩

theorem plugins_builtIn : builtIn.plugins = BuiltIn.plugins := by
  rfl

theorem mem_of_get?_builtIn {kind : String} {p : Plugin} (h : builtIn.get? kind = some p) :
    p ∈ BuiltIn.plugins ∧ p.id = kind :=
  plugins_builtIn ▸ id_of_get? h

theorem undemanding_builtIn : builtIn.Undemanding := by
  have hneeds : ∀ p ∈ BuiltIn.plugins, p.requiredNeeds = [] := by
    decide +kernel
  have hinputs : ∀ p ∈ BuiltIn.plugins, ∀ q ∈ p.inputPorts, q.required = false := by
    decide +kernel
  exact ⟨fun _ p hp => hneeds p (mem_of_get?_builtIn hp).1,
    fun _ p hp => hinputs p (mem_of_get?_builtIn hp).1⟩

end Registry

namespace BuiltIn

/-! ## Contract addresses -/

/-- The key of the only contract address that a built-in generator exposes. -/
def addressKey : String := "NEXT_PUBLIC_NFT_ADDRESS"

/-- An output exposes the key of a contract address. -/
def Exposes (o : Output) (key : String) : Prop :=
  ∃ v ∈ o.envVars, isAddressKey v.key = true ∧ v.key = key

theorem map_fst_addresses (os : List Output) : (addresses os).map Prod.fst =
    Text.sortedDistinct (((os.flatMap (·.envVars)).filter fun v => isAddressKey v.key).map
      (·.key)) := by
  simp [addresses, Function.comp_def]

theorem mem_map_fst_addresses {os : List Output} {key : String} :
    key ∈ (addresses os).map Prod.fst ↔ ∃ o ∈ os, Exposes o key := by
  rw [map_fst_addresses, Text.mem_sortedDistinct]
  simp only [List.mem_map, List.mem_filter, List.mem_flatMap, Exposes]
  constructor
  · rintro ⟨v, ⟨⟨o, ho, hv⟩, haddress⟩, rfl⟩
    exact ⟨o, ho, v, hv, haddress, rfl⟩
  · rintro ⟨o, ho, v, hv, haddress, rfl⟩
    exact ⟨v, ⟨⟨o, ho, hv⟩, haddress⟩, rfl⟩

/-- The keys of addresses are sorted, so they are settled by which of them there are. -/
theorem map_fst_addresses_congr {os os' : List Output}
    (h : ∀ key, key ∈ (addresses os).map Prod.fst ↔ key ∈ (addresses os').map Prod.fst) :
    (addresses os).map Prod.fst = (addresses os').map Prod.fst := by
  simp only [map_fst_addresses, Text.mem_sortedDistinct] at h ⊢
  exact Text.sortedDistinct_congr h

theorem exposes_iff_mem {o : Output} {key : String} :
    Exposes o key ↔ key ∈ (o.envVars.map (·.key)).filter isAddressKey := by
  simp only [Exposes, List.mem_filter, List.mem_map]
  constructor
  · rintro ⟨v, hv, haddress, rfl⟩
    exact ⟨⟨v, hv, rfl⟩, haddress⟩
  · rintro ⟨⟨v, hv, rfl⟩, haddress⟩
    exact ⟨v, hv, haddress, rfl⟩

theorem Frontend.not_isAddressKey (o : Options.FrontendScaffold) (c : Context) :
    ∀ key ∈ (envVars o c).map (·.key), isAddressKey key = false := by
  have hkeys : ∀ key ∈ (envVars o c).map (·.key), key ∈
      ["NEXT_PUBLIC_WALLETCONNECT_PROJECT_ID", "NEXT_PUBLIC_APP_NAME",
        "NEXT_PUBLIC_SUPERPOSITION_RPC_URL"] := by
    unfold envVars
    cases (c.input "network-config").isSome with
    | true => simp
    | false => simp
  have hnone : ∀ key ∈
      ["NEXT_PUBLIC_WALLETCONNECT_PROJECT_ID", "NEXT_PUBLIC_APP_NAME",
        "NEXT_PUBLIC_SUPERPOSITION_RPC_URL"], isAddressKey key = false := by
    decide +kernel
  exact fun key hkey => hnone key (hkeys key hkey)

theorem TelegramCommands.not_isAddressKey (o : Options.TelegramCommands) :
    ∀ key ∈ (output o).envVars.map (·.key), isAddressKey key = false := by
  have hkeys : ∀ key ∈ (output o).envVars.map (·.key), key ∈
      ["TELEGRAM_WEBHOOK_SECRET", "TELEGRAM_BOT_TOKEN"] := by
    unfold output shared delivery bot Output.append
    cases o.deliveryMethod with
    | webhook => simp
    | polling => simp
  have hnone : ∀ key ∈ ["TELEGRAM_WEBHOOK_SECRET", "TELEGRAM_BOT_TOKEN"],
      isAddressKey key = false := by
    decide +kernel
  exact fun key hkey => hnone key (hkeys key hkey)

/-- Only the contract generator exposes an address, and always the one. -/
theorem exposes_iff {p : Plugin} (hp : p ∈ plugins) {n : Node} {c : Context} {o : Output}
    (h : (p.generate n c).result = .ok (.output o)) {key : String} :
    Exposes o key ↔ p.id = NftContract.plugin.id ∧ key = addressKey := by
  have hnone (hkeys : ∀ key ∈ o.envVars.map (·.key), isAddressKey key = false) :
      ¬Exposes o key := by
    rw [exposes_iff_mem, List.mem_filter]
    rintro ⟨hkey, haddress⟩
    rw [hkeys key hkey] at haddress
    cases haddress
  simp only [plugins, List.mem_cons, List.not_mem_nil, or_false] at hp
  rcases hp with rfl | rfl | rfl | rfl | rfl | rfl
  · obtain ⟨-, rfl⟩ := Frontend.result_eq_ok h
    exact iff_of_false (hnone (Frontend.not_isAddressKey _ c)) fun h => absurd h.1 (by decide)
  · cases h
    refine iff_of_false (hnone ?_) fun h => absurd h.1 (by decide)
    change ∀ key ∈ ["NEXT_PUBLIC_WALLETCONNECT_PROJECT_ID", "NEXT_PUBLIC_APP_NAME"], _
    decide +kernel
  · cases h
    have hkeys : (["NEXT_PUBLIC_NFT_ADDRESS", "PRIVATE_KEY", "ERC721_DEPLOYMENT_API_URL"].filter
        isAddressKey) = [addressKey] := by
      decide +kernel
    rw [exposes_iff_mem]
    change key ∈ ["NEXT_PUBLIC_NFT_ADDRESS", "PRIVATE_KEY", "ERC721_DEPLOYMENT_API_URL"].filter
      isAddressKey ↔ _
    rw [hkeys, List.mem_singleton, and_iff_right rfl]
  · cases h
    refine iff_of_false (hnone ?_) fun h => absurd h.1 (by decide)
    change ∀ key ∈ ["TELEGRAM_BOT_TOKEN"], _
    decide +kernel
  · cases h
    exact iff_of_false (hnone (TelegramCommands.not_isAddressKey _)) fun h =>
      absurd h.1 (by decide)
  · cases h
    refine iff_of_false (hnone ?_) fun h => absurd h.1 (by decide)
    change ∀ key ∈ ([] : List String), _
    decide +kernel

/-! ## Contexts -/

/-- Two contexts hold the same of all that a built-in generator reads. -/
structure ReadsAlike (c c' : Context) : Prop where
  project_eq : c.settings.project = c'.settings.project
  settingsNetwork_eq : c.settings.network = c'.settings.network
  config_eq : c.config = c'.config
  frontendPath_eq : c.layout.frontendPath = c'.layout.frontendPath
  frontendSrcPath_eq : c.layout.frontendSrcPath = c'.layout.frontendSrcPath
  auth_eq : (c.input "auth-config").isSome = (c'.input "auth-config").isSome
  network_eq : (c.input "network-config").isSome = (c'.input "network-config").isSome
  addresses_eq : (addresses (c.wired "contract-in")).map Prod.fst =
    (addresses (c'.wired "contract-in")).map Prod.fst

namespace Frontend

theorem contractHooks_eq (found : List (String × String)) :
    contractHooks found = contractHooks ((found.map Prod.fst).map fun key => (key, "")) := by
  unfold contractHooks
  simp [Function.comp_def]

/-- The hooks are made of the keys of the addresses alone. -/
theorem hookFiles_congr (o : Options.FrontendScaffold) {os os' : List Output}
    (h : (addresses os).map Prod.fst = (addresses os').map Prod.fst) :
    hookFiles o os = hookFiles o os' := by
  have hnil : addresses os = [] ↔ addresses os' = [] := by
    rw [← List.map_eq_nil_iff (f := Prod.fst), h, List.map_eq_nil_iff]
  unfold hookFiles
  simp only [ne_eq, hnil]
  rw [contractHooks_eq, h, ← contractHooks_eq]

theorem output_congr (o : Options.FrontendScaffold) {c c' : Context} (h : ReadsAlike c c') :
    output o c = output o c' := by
  have hpages : pageFiles o c.layout = pageFiles o c'.layout := by
    unfold pageFiles pagesRoot
    rw [h.frontendPath_eq, h.frontendSrcPath_eq]
  have hstyles : styleFiles o c.layout = styleFiles o c'.layout := by
    unfold styleFiles
    rw [h.frontendPath_eq]
  have hfiles : files o c = files o c' := by
    unfold files network
    simp only [hpages, hstyles, hookFiles_congr o h.addresses_eq, h.settingsNetwork_eq,
      h.frontendPath_eq, h.frontendSrcPath_eq, h.auth_eq]
  have henvVars : envVars o c = envVars o c' := by
    unfold envVars
    rw [h.network_eq]
  unfold output
  rw [hfiles, henvVars, h.frontendPath_eq]

end Frontend

/-- What a built-in generator returns is settled by what it reads. -/
theorem result_congr {p : Plugin} (hp : p ∈ plugins) {c c' : Context} (h : ReadsAlike c c')
    (n n' : Node) : (p.generate n c).result = (p.generate n' c').result := by
  simp only [plugins, List.mem_cons, List.not_mem_nil, or_false] at hp
  rcases hp with rfl | rfl | rfl | rfl | rfl | rfl
  · have hwritable : c.settings.isWritable = c'.settings.isWritable := by
      rw [Settings.isWritable, h.settingsNetwork_eq, ← Settings.isWritable]
    rw [Frontend.result_generate, Frontend.result_generate, hwritable, h.config_eq,
      Frontend.output_congr _ h]
  · change Except.ok (Returned.output _) = .ok (.output _)
    rw [h.config_eq]
  · change Except.ok (Returned.output _) = .ok (.output _)
    rw [h.config_eq]
  · change Except.ok (Returned.output _) = .ok (.output _)
    rw [h.config_eq]
  · change Except.ok (Returned.output _) = .ok (.output _)
    rw [h.config_eq]
  · change Except.ok (Returned.output _) = .ok (.output _)
    rw [h.config_eq, h.project_eq]

end BuiltIn
end ProjectComposer
