import ProjectComposer.Options.FrontendScaffold
import ProjectComposer.Options.NftContract
import ProjectComposer.Options.QualityGates
import ProjectComposer.Options.TelegramCommands
import ProjectComposer.Options.TelegramNotifications
import ProjectComposer.Options.WalletAuth

/-!
Validated configs of nodes: one of the known option records, or the members of an object as they
stand. A `ConfigSchema` is how a kind of node reads its config and describes what it reads.
-/
namespace ProjectComposer
set_option autoImplicit false
open Wire

inductive Config
  | frontendScaffold (o : Options.FrontendScaffold)
  | walletAuth (o : Options.WalletAuth)
  | nftContract (o : Options.NftContract)
  | telegramNotifications (o : Options.TelegramNotifications)
  | telegramCommands (o : Options.TelegramCommands)
  | qualityGates (o : Options.QualityGates)
  | free (members : Json.Object)

namespace Config

def toJson : Config → Json
  | .frontendScaffold o => Options.FrontendScaffold.codec.write .camel o
  | .walletAuth o => Options.WalletAuth.codec.write .camel o
  | .nftContract o => Options.NftContract.codec.write .camel o
  | .telegramNotifications o => Options.TelegramNotifications.codec.write .camel o
  | .telegramCommands o => Options.TelegramCommands.codec.write .camel o
  | .qualityGates o => Options.QualityGates.codec.write .camel o
  | .free m => .object m

/-- Whether the code of a frontend lives in a directory for sources; only an explicit `false`
denies it. -/
def usesSource : Config → Bool
  | .frontendScaffold o => o.srcDirectory
  | .free m =>
    match m.get? "src_directory" with
    | some (.bool false) => false
    | _ => true
  | _ => true

end Config

/-! ## Schemas -/

structure ConfigSchema where
  read : Json.Object → Checked Config
  describe : Json

namespace ConfigSchema

def ofCodec {α : Type} (c : Codec α) (config : α → Config) : ConfigSchema where
  read m := (c.read .memory (.object m)).map config
  describe := .object c.describe

def frontendScaffold : ConfigSchema :=
  ofCodec Options.FrontendScaffold.codec .frontendScaffold

def walletAuth : ConfigSchema :=
  ofCodec Options.WalletAuth.codec .walletAuth

def nftContract : ConfigSchema :=
  ofCodec Options.NftContract.codec .nftContract

def telegramNotifications : ConfigSchema :=
  ofCodec Options.TelegramNotifications.codec .telegramNotifications

def telegramCommands : ConfigSchema :=
  ofCodec Options.TelegramCommands.codec .telegramCommands

def qualityGates : ConfigSchema :=
  ofCodec Options.QualityGates.codec .qualityGates

/-- Accepts every object and keeps all of its members. -/
def free : ConfigSchema where
  read m := .ok (.free m)
  describe :=
    .object [("additionalProperties", .bool true), ("properties", .object []),
      ("title", .text "EmptyConfig"), ("type", .text "object")]

end ConfigSchema
end ProjectComposer
