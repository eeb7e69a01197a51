import ProjectComposer.Options.Labels

/-!
Options of Telegram commands: the bot framework, how updates arrive and the commands answered.
-/
namespace ProjectComposer.Options.TelegramCommands
set_option autoImplicit false
open Wire

/-! ## Alternatives -/

inductive Framework
  | grammy
  | telegraf
  deriving DecidableEq, Repr

instance : Named Framework where
  all := [.grammy, .telegraf]
  name
    | .grammy => "grammy"
    | .telegraf => "telegraf"

inductive Delivery
  | webhook
  | polling
  deriving DecidableEq, Repr

instance : Named Delivery where
  all := [.webhook, .polling]
  name
    | .webhook => "webhook"
    | .polling => "polling"

inductive BotCommand
  | start
  | help
  | balance
  | wallet
  | subscribe
  | unsubscribe
  | settings
  | status
  deriving DecidableEq, Repr

instance : Named BotCommand where
  all := [.start, .help, .balance, .wallet, .subscribe, .unsubscribe, .settings, .status]
  name
    | .start => "start"
    | .help => "help"
    | .balance => "balance"
    | .wallet => "wallet"
    | .subscribe => "subscribe"
    | .unsubscribe => "unsubscribe"
    | .settings => "settings"
    | .status => "status"

end ProjectComposer.Options.TelegramCommands

namespace ProjectComposer.Options
open Wire

/-! ## Options -/

structure TelegramCommands extends Labels where
  framework : TelegramCommands.Framework := .grammy
  deliveryMethod : TelegramCommands.Delivery := .webhook
  commands : List TelegramCommands.BotCommand := [.start, .help]
  rateLimitEnabled : Bool := true
  chatFlowEnabled : Bool := false
  deriving DecidableEq, Repr

def TelegramCommands.codec : Codec TelegramCommands :=
  (Codec.record "TelegramCommandsConfig" <| Labels.fields <|
    .withDefault (.plain "framework") .oneOf .grammy <|
    .withDefault ⟨"delivery_method", "deliveryMethod"⟩ .oneOf .webhook <|
    .withFresh (.plain "commands") (.listWith { least := 1 } .oneOf) [.start, .help] <|
    .withDefault ⟨"rate_limit_enabled", "rateLimitEnabled"⟩ .bool true <|
    .withDefault ⟨"chat_flow_enabled", "chatFlowEnabled"⟩ .bool false .done).imap
    (fun (labels, framework, deliveryMethod, commands, rateLimitEnabled, chatFlowEnabled, ()) =>
      { toLabels := labels
        framework := framework
        deliveryMethod := deliveryMethod
        commands := commands
        rateLimitEnabled := rateLimitEnabled
        chatFlowEnabled := chatFlowEnabled })
    (fun r => (r.toLabels, r.framework, r.deliveryMethod, r.commands, r.rateLimitEnabled,
      r.chatFlowEnabled, ()))

end ProjectComposer.Options
