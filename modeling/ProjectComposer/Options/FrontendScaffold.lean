import ProjectComposer.Options.Labels

/-!
Options of the frontend scaffold: frameworks, wallet features and the structure of the application.
-/
namespace ProjectComposer.Options.FrontendScaffold
set_option autoImplicit false
open Wire

/-! ## Alternatives -/

inductive Framework
  | nextjs
  | viteReact
  | remix
  deriving DecidableEq, Repr

instance : Named Framework where
  all := [.nextjs, .viteReact, .remix]
  name
    | .nextjs => "nextjs"
    | .viteReact => "vite-react"
    | .remix => "remix"

inductive Styling
  | tailwind
  | cssModules
  | styledComponents
  deriving DecidableEq, Repr

instance : Named Styling where
  all := [.tailwind, .cssModules, .styledComponents]
  name
    | .tailwind => "tailwind"
    | .cssModules => "css-modules"
    | .styledComponents => "styled-components"

inductive Web3Provider
  | wagmi
  | ethers
  | viem
  deriving DecidableEq, Repr

instance : Named Web3Provider where
  all := [.wagmi, .ethers, .viem]
  name
    | .wagmi => "wagmi"
    | .ethers => "ethers"
    | .viem => "viem"

/-- How pages are laid out in the application. -/
inductive Structure
  | appRouter
  | pagesRouter
  deriving DecidableEq, Repr

instance : Named Structure where
  all := [.appRouter, .pagesRouter]
  name
    | .appRouter => "app-router"
    | .pagesRouter => "pages-router"

inductive StateManagement
  | tanstackQuery
  | zustand
  | none
  deriving DecidableEq, Repr

instance : Named StateManagement where
  all := [.tanstackQuery, .zustand, .none]
  name
    | .tanstackQuery => "tanstack-query"
    | .zustand => "zustand"
    | .none => "none"

end ProjectComposer.Options.FrontendScaffold

namespace ProjectComposer.Options
open Wire

/-! ## Options -/

structure FrontendScaffold extends Labels where
  framework : FrontendScaffold.Framework := .nextjs
  styling : FrontendScaffold.Styling := .tailwind
  web3Provider : FrontendScaffold.Web3Provider := .wagmi
  walletConnect : Bool := true
  rainbowKit : Bool := true
  siweAuth : Bool := false
  includeContracts : Bool := true
  generateContractHooks : Bool := true
  projectStructure : FrontendScaffold.Structure := .appRouter
  srcDirectory : Bool := true
  stateManagement : FrontendScaffold.StateManagement := .tanstackQuery
  ssrEnabled : Bool := true
  darkModeSupport : Bool := true
  appName : String := "My DApp"
  deriving DecidableEq, Repr

def FrontendScaffold.codec : Codec FrontendScaffold :=
  (Codec.record "FrontendScaffoldConfig" <| Labels.fields <|
    .withDefault (.plain "framework") .oneOf .nextjs <|
    .withDefault (.plain "styling") .oneOf .tailwind <|
    .withDefault ⟨"web3_provider", "web3Provider"⟩ .oneOf .wagmi <|
    .withDefault ⟨"wallet_connect", "walletConnect"⟩ .bool true <|
    .withDefault ⟨"rainbow_kit", "rainbowKit"⟩ .bool true <|
    .withDefault ⟨"siwe_auth", "siweAuth"⟩ .bool false <|
    .withDefault ⟨"include_contracts", "includeContracts"⟩ .bool true <|
    .withDefault ⟨"generate_contract_hooks", "generateContractHooks"⟩ .bool true <|
    .withDefault ⟨"project_structure", "projectStructure"⟩ .oneOf .appRouter <|
    .withDefault ⟨"src_directory", "srcDirectory"⟩ .bool true <|
    .withDefault ⟨"state_management", "stateManagement"⟩ .oneOf .tanstackQuery <|
    .withDefault ⟨"ssr_enabled", "ssrEnabled"⟩ .bool true <|
    .withDefault ⟨"dark_mode_support", "darkModeSupport"⟩ .bool true <|
    .withDefault ⟨"app_name", "appName"⟩ (.textWith Labels.nameRule) "My DApp"
      .done).imap
    (fun (labels, framework, styling, web3Provider, walletConnect, rainbowKit, siweAuth,
      includeContracts, generateContractHooks, projectStructure, srcDirectory, stateManagement,
      ssrEnabled, darkModeSupport, appName, ()) =>
      { toLabels := labels
        framework := framework
        styling := styling
        web3Provider := web3Provider
        walletConnect := walletConnect
        rainbowKit := rainbowKit
        siweAuth := siweAuth
        includeContracts := includeContracts
        generateContractHooks := generateContractHooks
        projectStructure := projectStructure
        srcDirectory := srcDirectory
        stateManagement := stateManagement
        ssrEnabled := ssrEnabled
        darkModeSupport := darkModeSupport
        appName := appName })
    (fun r => (r.toLabels, r.framework, r.styling, r.web3Provider, r.walletConnect, r.rainbowKit,
      r.siweAuth, r.includeContracts, r.generateContractHooks, r.projectStructure, r.srcDirectory,
      r.stateManagement, r.ssrEnabled, r.darkModeSupport, r.appName, ()))

end ProjectComposer.Options
