import ProjectComposer.BuiltIn.FrontendTemplates
import ProjectComposer.Plugin.Basic

/-!
The frontend scaffold: an application that every other generator's frontend files go into. Its own
configuration stands at the root of the application, next to the sources.
-/
namespace ProjectComposer.BuiltIn.Frontend
set_option autoImplicit false
open Wire Named Options

/-! ## Files -/

/-- The network of a blueprint that names none. -/
def defaultNetwork : Network where
  chainId := 421614
  name := "Arbitrum Sepolia"
  rpcUrl := some "https://sepolia-rollup.arbitrum.io/rpc"
  explorerUrl := some "https://sepolia.arbiscan.io"
  isTestnet := true

/-- The directory of pages, empty parts left out. -/
def pagesRoot (l : Layout) : String :=
  Text.joinTexts "/" ([l.frontendPath, l.frontendSrcPath, "pages"].filter fun p => p ≠ "")

def pageFiles (o : FrontendScaffold) (l : Layout) : List File :=
  match o.projectStructure with
  | .appRouter => [
    ⟨"layout.tsx", appLayout o, some .frontendApp⟩,
    ⟨"page.tsx", homePage o, some .frontendApp⟩,
    ⟨"providers.tsx", providers o.rainbowKit, some .frontendApp⟩]
  | .pagesRouter => [
    ⟨pagesRoot l ++ "/_app.tsx", pagesApp o, none⟩,
    ⟨pagesRoot l ++ "/index.tsx", homePage o, none⟩,
    ⟨"providers.tsx", providers o.rainbowKit, some .frontendLib⟩]

def styleFiles (o : FrontendScaffold) (l : Layout) : List File :=
  if o.styling = .tailwind then [
    ⟨l.frontendPath ++ "/tailwind.config.js", tailwindConfig o, none⟩,
    ⟨"globals.css", globalStyles, some .frontendStyles⟩]
  else []

/-- The hooks for contracts, where some producer exposes an address. -/
def hookFiles (o : FrontendScaffold) (contracts : List Output) : List File :=
  let found := addresses contracts
  if o.includeContracts ∧ o.generateContractHooks ∧ found ≠ [] then
    [⟨"useContracts.ts", contractHooks found, some .frontendHooks⟩]
  else []

def network (c : Context) : Network :=
  c.settings.network.getD defaultNetwork

def files (o : FrontendScaffold) (c : Context) : List File :=
  let l := c.layout
  let withAuth := (c.input "auth-config").isSome
  [⟨l.frontendPath ++ "/next.config.js", nextConfig, none⟩,
    ⟨l.frontendPath ++ "/tsconfig.json", tsconfig l.frontendSrcPath, none⟩] ++
  pageFiles o l ++
  [⟨"wagmi.ts", wagmiConfig o withAuth, some .frontendLib⟩,
    ⟨"chains.ts", chainConfig (network c), some .frontendLib⟩,
    ⟨"utils.ts", utils, some .frontendLib⟩,
    ⟨"wallet-button.tsx", walletButton o.rainbowKit, some .frontendComponents⟩,
    ⟨"env.d.ts", envTypes, some .frontendTypes⟩] ++
  styleFiles o l ++ hookFiles o (c.wired "contract-in")

/-! ## Other artifacts -/

def envVars (o : FrontendScaffold) (c : Context) : List EnvVar :=
  [{ key := "NEXT_PUBLIC_WALLETCONNECT_PROJECT_ID"
     description := "WalletConnect Cloud project ID for wallet connections"
     required := o.walletConnect },
    { key := "NEXT_PUBLIC_APP_NAME"
      description := "Application name displayed in wallet dialogs"
      required := false
      default := some o.appName }] ++
  if (c.input "network-config").isSome then
    [{ key := "NEXT_PUBLIC_SUPERPOSITION_RPC_URL"
       description := "Superposition L3 RPC endpoint"
       required := false
       default := some "https://rpc.superposition.so" }]
  else []

def scripts (root : String) : List Script := [
  { name := "dev"
    command := "next dev " ++ root
    description := some "Start development server" },
  { name := "build"
    command := "next build " ++ root
    description := some "Build for production" },
  { name := "start"
    command := "next start " ++ root
    description := some "Start production server" },
  { name := "lint:web"
    command := "next lint --dir " ++ root
    description := some "Run ESLint on the app" }]

def dependencies (o : FrontendScaffold) : List Dependency :=
  included [
    (Package.next.runtime, true),
    (Package.react.runtime, true),
    (Package.reactDom.runtime, true),
    (Package.wagmi.runtime, true),
    (Package.viem.runtime, true),
    (Package.reactQuery.runtime, o.stateManagement = .tanstackQuery),
    (Package.rainbowKit.runtime, o.rainbowKit),
    (Package.tailwind.development, o.styling = .tailwind),
    (Package.typescript.development, true),
    (Package.nodeTypes.development, true),
    (Package.reactTypes.development, true)]

/-! ## Generator -/

def output (o : FrontendScaffold) (c : Context) : Output where
  files := files o c
  envVars := envVars o c
  scripts := scripts c.layout.frontendPath
  docs := [⟨"docs/frontend/README.md", "Frontend Application", docs o c.layout.frontendPath⟩]
  dependencies := dependencies o

def options : Config → FrontendScaffold
  | .frontendScaffold o => o
  | _ => {}

/-- The scaffold is not made where its chain configuration cannot be written. -/
def generate (_ : Node) (c : Context) : Generated :=
  let o := options c.config
  let out := output o c
  let begun := "Generating frontend scaffold: " ++ o.appName ++ " (" ++ name o.framework ++ ", " ++
    name o.styling ++ ")"
  if (network c).isWritable then
    { log := [begun,
        "Generated frontend scaffold with " ++ toString out.files.length ++ " files"]
      result := .ok (.output out) }
  else { log := [begun], result := .error (.raised .overlong) }

def plugin : Plugin where
  card :=
    { id := "frontend-scaffold"
      name := "Frontend Scaffold"
      description := "Generate a Next.js Web3 application with wagmi, RainbowKit, " ++
        "and smart contract integration"
      field := .app
      tags := ["nextjs", "web3", "wagmi", "rainbowkit", "frontend", "scaffold", "dapp"] }
  schema := .frontendScaffold
  ports := [
    { id := "contract-in", name := "Contract ABI", direction := .input, dataType := .contract },
    { id := "network-in", name := "Network Config", direction := .input, dataType := .config },
    { id := "app-out", name := "App Context", direction := .output, dataType := .config }]
  needs := [
    { kind := "wallet-auth", slots := [("auth-out", "auth-config")] },
    { kind := "superposition-network", slots := [("network-out", "network-config")] }]
  generate := generate

end ProjectComposer.BuiltIn.Frontend
