import ProjectComposer.Options.Labels

/-!
Options of wallet authentication: the provider and the ways of logging in.
-/
namespace ProjectComposer.Options.WalletAuth
set_option autoImplicit false
open Wire

/-! ## Alternatives -/

inductive Provider
  | rainbowkit
  | web3modal
  | custom
  deriving DecidableEq, Repr

instance : Named Provider where
  all := [.rainbowkit, .web3modal, .custom]
  name
    | .rainbowkit => "rainbowkit"
    | .web3modal => "web3modal"
    | .custom => "custom"

inductive SocialLogin
  | google
  | twitter
  | discord
  | github
  deriving DecidableEq, Repr

instance : Named SocialLogin where
  all := [.google, .twitter, .discord, .github]
  name
    | .google => "google"
    | .twitter => "twitter"
    | .discord => "discord"
    | .github => "github"

end ProjectComposer.Options.WalletAuth

namespace ProjectComposer.Options
open Wire

/-! ## Options -/

structure WalletAuth extends Labels where
  provider : WalletAuth.Provider := .rainbowkit
  walletConnectEnabled : Bool := true
  siweEnabled : Bool := true
  socialLogins : List WalletAuth.SocialLogin := []
  sessionPersistence : Bool := true
  appName : Option String := none
  deriving DecidableEq, Repr

def WalletAuth.codec : Codec WalletAuth :=
  (Codec.record "WalletAuthConfig" <| Labels.fields <|
    .withDefault (.plain "provider") .oneOf .rainbowkit <|
    .withDefault ⟨"wallet_connect_enabled", "walletConnectEnabled"⟩ .bool true <|
    .withDefault ⟨"siwe_enabled", "siweEnabled"⟩ .bool true <|
    .withFresh ⟨"social_logins", "socialLogins"⟩ (.list .oneOf) [] <|
    .withDefault ⟨"session_persistence", "sessionPersistence"⟩ .bool true <|
    .withDefault ⟨"app_name", "appName"⟩ (.optional (.textWith Labels.nameRule)) none .done).imap
    (fun (labels, provider, walletConnectEnabled, siweEnabled, socialLogins, sessionPersistence,
      appName, ()) =>
      { toLabels := labels
        provider := provider
        walletConnectEnabled := walletConnectEnabled
        siweEnabled := siweEnabled
        socialLogins := socialLogins
        sessionPersistence := sessionPersistence
        appName := appName })
    (fun r => (r.toLabels, r.provider, r.walletConnectEnabled, r.siweEnabled, r.socialLogins,
      r.sessionPersistence,
      r.appName, ()))

end ProjectComposer.Options
