import ProjectComposer.BuiltIn.Package
import ProjectComposer.Plugin.Basic

/-!
Wallet authentication: the settings with which a frontend connects wallets.
-/
namespace ProjectComposer.BuiltIn.WalletAuth
set_option autoImplicit false
open Wire Named Options

/-! ## Templates -/

def shownName (o : WalletAuth) : String :=
  o.appName.getD "My DApp"

def authConfig (o : WalletAuth) : String :=
  let social := Text.joinTexts ", " (o.socialLogins.map fun s => "'" ++ name s ++ "'")
  Text.lines [
    "export const walletAuthConfig = \x7b",
    "  provider: '" ++ name o.provider ++ "',",
    "  appName: process.env.NEXT_PUBLIC_APP_NAME ?? '" ++ shownName o ++ "',",
    "  walletConnectEnabled: " ++ flag o.walletConnectEnabled ++ ",",
    "  siweEnabled: " ++ flag o.siweEnabled ++ ",",
    "  socialLogins: [" ++ social ++ "],",
    "  sessionPersistence: " ++ flag o.sessionPersistence ++ ",",
    "\x7d as const;"]

/-! ## Generator -/

def output (o : WalletAuth) : Output where
  files := [⟨"auth/wallet-auth.ts", authConfig o, some .frontendLib⟩]
  envVars := [
    { key := "NEXT_PUBLIC_WALLETCONNECT_PROJECT_ID"
      description := "WalletConnect Cloud project ID"
      required := o.provider = .rainbowkit },
    { key := "NEXT_PUBLIC_APP_NAME"
      description := "Application name for wallet dialogs"
      required := false
      default := o.appName }]
  scripts := [
    { name := "wallet:setup"
      command := "echo \"Get your WalletConnect Project ID from https://dashboard.reown.com\""
      description := some "Instructions for wallet setup" }]
  dependencies :=
    (if o.provider = .rainbowkit then [Package.rainbowKit.runtime] else []) ++
      [Package.wagmi.runtime, Package.viem.runtime]

def options : Config → WalletAuth
  | .walletAuth o => o
  | _ => {}

def generate (_ : Node) (c : Context) : Generated :=
  let o := options c.config
  { log := ["Generated wallet authentication: " ++ name o.provider]
    result := .ok (.output (output o)) }

def plugin : Plugin where
  card :=
    { id := "wallet-auth"
      name := "Wallet Authentication"
      description := "Wallet connection with RainbowKit and WalletConnect"
      field := .app
      tags := ["wallet", "authentication", "rainbowkit", "walletconnect", "web3"] }
  schema := .walletAuth
  ports := [{ id := "auth-out", name := "Auth Context", direction := .output, dataType := .config }]
  generate := generate

end ProjectComposer.BuiltIn.WalletAuth
