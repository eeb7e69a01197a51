import ProjectComposer.BuiltIn.Package
import ProjectComposer.Plugin.Basic

/-!
Telegram notifications: a service that sends alerts and updates through a bot.
-/
namespace ProjectComposer.BuiltIn.TelegramNotifications
set_option autoImplicit false
open Wire Named Options

/-! ## Templates -/

def notifyService (o : TelegramNotifications) : String :=
  Text.lines [
    "import \x7b telegramBot \x7d from './bot-client';",
    "import \x7b getTemplate \x7d from './templates';",
    "import type \x7b NotificationPayload \x7d from './types';",
    "",
    "export async function sendNotification(chatId: string | number, payload: " ++
      "NotificationPayload) \x7b",
    "  const text = getTemplate(payload.type, payload.data);",
    "  try \x7b",
    "    await telegramBot.api.sendMessage(chatId, text, \x7b parse_mode: '" ++
      name o.templateFormat ++ "' \x7d);",
    "    return \x7b success: true \x7d;",
    "  \x7d catch (error) \x7b",
    "    console.error('Failed to send Telegram notification:', error);",
    "    return \x7b success: false, error \x7d;",
    "  \x7d",
    "\x7d"]

def transactionCase : String :=
  "    case 'transaction':\n" ++
    "      return `New transaction\\nHash: $\x7bdata.hash\x7d\\nValue: $\x7bdata.value\x7d ETH`;"

def priceCase : String :=
  "    case 'price-alert':\n" ++
    "      return `Price alert\\nAsset: $\x7bdata.symbol\x7d\\nPrice: $\x7bdata.price\x7d`;"

def templates (o : TelegramNotifications) : String :=
  let cases := Text.joinTexts "\n" <| included [
    (transactionCase, o.notificationTypes.contains .transaction),
    (priceCase, o.notificationTypes.contains .priceAlert)]
  Text.lines [
    "import type \x7b NotificationType \x7d from './types';",
    "",
    "export function getTemplate(type: NotificationType, data: any): string \x7b",
    "  switch (type) \x7b",
    cases,
    "    default:",
    "      return data.message || 'New notification';",
    "  \x7d",
    "\x7d"]

def botClient : String :=
  Text.lines [
    "import \x7b Bot \x7d from 'grammy';",
    "",
    "const token = process.env.TELEGRAM_BOT_TOKEN;",
    "if (!token) throw new Error('TELEGRAM_BOT_TOKEN is not defined');",
    "",
    "export const telegramBot = new Bot(token);"]

def types (o : TelegramNotifications) : String :=
  let shown := o.notificationTypes.filter fun t => t ≠ .custom
  let alternatives := Text.joinTexts "\n" (shown.map fun t => "  | '" ++ name t ++ "'")
  Text.lines [
    "export type NotificationType =",
    alternatives,
    "  | 'custom';",
    "",
    "export interface NotificationPayload \x7b",
    "  type: NotificationType;",
    "  data: any;",
    "\x7d"]

/-! ## Generator -/

def output (o : TelegramNotifications) : Output where
  files := [
    ⟨"src/lib/telegram/notify-service.ts", notifyService o, none⟩,
    ⟨"src/lib/telegram/templates.ts", templates o, none⟩,
    ⟨"src/lib/telegram/bot-client.ts", botClient, none⟩,
    ⟨"src/lib/telegram/types.ts", types o, none⟩]
  envVars := [
    { key := "TELEGRAM_BOT_TOKEN"
      description := "Bot token from @BotFather"
      secret := true }]
  dependencies := [Package.grammy.runtime]

def options : Config → TelegramNotifications
  | .telegramNotifications o => o
  | _ => {}

def generate (_ : Node) (c : Context) : Generated :=
  let o := options c.config
  { log := ["Generated Telegram notifications for " ++
      Text.joinTexts ", " (o.notificationTypes.map name)]
    result := .ok (.output (output o)) }

def plugin : Plugin where
  card :=
    { id := "telegram-notifications"
      name := "Telegram Notifications"
      description := "Send-only Telegram integration for alerts and updates"
      field := .telegram
      tags := ["telegram", "notifications", "alerts"] }
  schema := .telegramNotifications
  ports := [
    { id := "notify-out", name := "Notifications", direction := .output, dataType := .config }]
  generate := generate

end ProjectComposer.BuiltIn.TelegramNotifications
