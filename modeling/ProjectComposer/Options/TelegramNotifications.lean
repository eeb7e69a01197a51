import ProjectComposer.Options.Labels

/-!
Options of Telegram notifications: the events reported and the markup of messages.
-/
namespace ProjectComposer.Options.TelegramNotifications
set_option autoImplicit false
open Wire

/-! ## Alternatives -/

inductive NotificationType
  | transaction
  | priceAlert
  | whaleAlert
  | nftActivity
  | defiPosition
  | governance
  | contractEvent
  | custom
  deriving DecidableEq, Repr

instance : Named NotificationType where
  all := [.transaction, .priceAlert, .whaleAlert, .nftActivity, .defiPosition, .governance,
    .contractEvent, .custom]
  name
    | .transaction => "transaction"
    | .priceAlert => "price-alert"
    | .whaleAlert => "whale-alert"
    | .nftActivity => "nft-activity"
    | .defiPosition => "defi-position"
    | .governance => "governance"
    | .contractEvent => "contract-event"
    | .custom => "custom"

inductive TemplateFormat
  | html
  | markdown
  | markdownV2
  deriving DecidableEq, Repr

instance : Named TemplateFormat where
  all := [.html, .markdown, .markdownV2]
  name
    | .html => "HTML"
    | .markdown => "Markdown"
    | .markdownV2 => "MarkdownV2"

end ProjectComposer.Options.TelegramNotifications

namespace ProjectComposer.Options
open Wire

/-! ## Options -/

structure TelegramNotifications extends Labels where
  notificationTypes : List TelegramNotifications.NotificationType := [.transaction]
  templateFormat : TelegramNotifications.TemplateFormat := .html
  deriving DecidableEq, Repr

def TelegramNotifications.codec : Codec TelegramNotifications :=
  (Codec.record "TelegramNotifyConfig" <| Labels.fields <|
    .withFresh ⟨"notification_types", "notificationTypes"⟩ (.list .oneOf) [.transaction] <|
    .withDefault ⟨"template_format", "templateFormat"⟩ .oneOf .html .done).imap
    (fun (labels, notificationTypes, templateFormat, ()) =>
      { toLabels := labels
        notificationTypes := notificationTypes
        templateFormat := templateFormat })
    (fun r => (r.toLabels, r.notificationTypes, r.templateFormat, ()))

end ProjectComposer.Options
