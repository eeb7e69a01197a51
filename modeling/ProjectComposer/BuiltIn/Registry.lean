import ProjectComposer.BuiltIn.Frontend
import ProjectComposer.BuiltIn.NftContract
import ProjectComposer.BuiltIn.QualityGates
import ProjectComposer.BuiltIn.TelegramCommands
import ProjectComposer.BuiltIn.TelegramNotifications
import ProjectComposer.BuiltIn.WalletAuth
import ProjectComposer.Plugin.Registry

/-!
The registry of the built-in plugins.
-/
namespace ProjectComposer
set_option autoImplicit false

namespace BuiltIn

def plugins : List Plugin :=
  [Frontend.plugin, WalletAuth.plugin, NftContract.plugin, TelegramNotifications.plugin,
    TelegramCommands.plugin, QualityGates.plugin]

end BuiltIn

def Registry.builtIn : Registry :=
  .ofPlugins BuiltIn.plugins

end ProjectComposer
