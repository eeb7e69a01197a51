import ProjectComposer.BuiltIn.Package
import ProjectComposer.Plugin.Basic

/-!
Telegram commands: a bot that answers commands, called by a webhook or polling for messages.
-/
namespace ProjectComposer.BuiltIn.TelegramCommands
set_option autoImplicit false
open Wire Named Options

/-! ## Templates -/

def botClient (o : TelegramCommands) : String :=
  match o.framework with
  | .telegraf => Text.lines [
    "import \x7b Telegraf \x7d from 'telegraf';",
    "import \x7b registerCommands \x7d from './composers/commands';",
    "",
    "const token = process.env.TELEGRAM_BOT_TOKEN;",
    "if (!token) throw new Error('TELEGRAM_BOT_TOKEN is not defined');",
    "",
    "export const telegramBot = new Telegraf(token);",
    "",
    "registerCommands(telegramBot);"]
  | .grammy => Text.lines [
    "import \x7b Bot \x7d from 'grammy';",
    "import \x7b commandsComposer \x7d from './composers/commands';",
    "",
    "const token = process.env.TELEGRAM_BOT_TOKEN;",
    "if (!token) throw new Error('TELEGRAM_BOT_TOKEN is not defined');",
    "",
    "export const telegramBot = new Bot(token);",
    "",
    "telegramBot.use(commandsComposer);"]

def telegrafHandler (c : TelegramCommands.BotCommand) : String :=
  "  bot.command('" ++ name c ++ "', (ctx) => ctx.reply('Handled /" ++ name c ++ " command!'));"

def grammyHandler (c : TelegramCommands.BotCommand) : String :=
  "commandsComposer.command('" ++ name c ++ "', async (ctx) => \x7b\n" ++
    "  await ctx.reply('Handled /" ++ name c ++ " command!');\n\x7d);"

def chatFlow : String :=
  "\n\ncommandsComposer.on('message:text', async (ctx) => \x7b\n" ++
    "  if (ctx.message.text.startsWith('/')) return;\n" ++
    "  await ctx.reply(`You said: $\x7bctx.message.text\x7d`);\n\x7d);"

def telegrafCommands (o : TelegramCommands) : String :=
  let handlers := Text.joinTexts "\n" (o.commands.map telegrafHandler)
  Text.lines [
    "import type \x7b Telegraf \x7d from 'telegraf';",
    "",
    "export function registerCommands(bot: Telegraf) \x7b",
    handlers,
    "\x7d"]

def grammyCommands (o : TelegramCommands) : String :=
  let handlers := Text.joinTexts "\n\n" (o.commands.map grammyHandler)
  let chatFlow := if o.chatFlowEnabled then chatFlow else ""
  Text.lines [
    "import \x7b Composer \x7d from 'grammy';",
    "",
    "export const commandsComposer = new Composer();",
    "",
    handlers ++ chatFlow]

def commands (o : TelegramCommands) : String :=
  match o.framework with
  | .telegraf => telegrafCommands o
  | .grammy => grammyCommands o

def webhookHandler (o : TelegramCommands) : String :=
  match o.framework with
  | .telegraf => Text.lines [
    "import \x7b NextRequest, NextResponse \x7d from 'next/server';",
    "import \x7b telegramBot \x7d from '@/lib/telegram/bot-client';",
    "",
    "export async function POST(req: NextRequest) \x7b",
    "  if (req.headers.get('x-telegram-bot-api-secret-token') !== " ++
      "process.env.TELEGRAM_WEBHOOK_SECRET) \x7b",
    "    return NextResponse.json(\x7b error: 'Unauthorized' \x7d, \x7b status: 401 \x7d);",
    "  \x7d",
    "  await telegramBot.handleUpdate(await req.json());",
    "  return NextResponse.json(\x7b ok: true \x7d);",
    "\x7d"]
  | .grammy => Text.lines [
    "import \x7b webhookCallback \x7d from 'grammy';",
    "import \x7b telegramBot \x7d from '@/lib/telegram/bot-client';",
    "",
    "export const POST = webhookCallback(telegramBot, 'std/http', \x7b",
    "  secretToken: process.env.TELEGRAM_WEBHOOK_SECRET,",
    "\x7d);"]

def pollingScript (o : TelegramCommands) : String :=
  let start := match o.framework with
    | .telegraf => "launch"
    | .grammy => "start"
  Text.lines [
    "import \x7b telegramBot \x7d from '../src/lib/telegram/bot-client';",
    "",
    "async function main() \x7b",
    "  console.log('Starting Telegram bot in polling mode...');",
    "  await telegramBot." ++ start ++ "();",
    "\x7d",
    "",
    "main().catch(console.error);"]

/-! ## Generator -/

def package : TelegramCommands.Framework → Package
  | .grammy => .grammy
  | .telegraf => .telegraf

/-- What both ways of delivery have in common. -/
def shared (o : TelegramCommands) : Output where
  files := [
    ⟨"src/lib/telegram/bot-client.ts", botClient o, none⟩,
    ⟨"src/lib/telegram/composers/commands.ts", commands o, none⟩]

def delivery (o : TelegramCommands) : Output :=
  match o.deliveryMethod with
  | .webhook =>
    { files := [⟨"telegram/webhook/route.ts", webhookHandler o, some .backendRoutes⟩]
      envVars := [
        { key := "TELEGRAM_WEBHOOK_SECRET"
          description := "Secret for webhook verification"
          secret := true }] }
  | .polling =>
    { files := [⟨"telegram-bot.ts", pollingScript o, some .contractScripts⟩]
      scripts := [
        { name := "bot:start"
          command := "ts-node scripts/telegram-bot.ts"
          description := some "Start the bot in polling mode" }]
      dependencies := [Package.tsNode.development] }

def bot (o : TelegramCommands) : Output where
  envVars := [
    { key := "TELEGRAM_BOT_TOKEN"
      description := "Bot token from @BotFather"
      secret := true }]
  dependencies := [(package o.framework).runtime]

def output (o : TelegramCommands) : Output :=
  ((shared o).append (delivery o)).append (bot o)

def options : Config → TelegramCommands
  | .telegramCommands o => o
  | _ => {}

def generate (_ : Node) (c : Context) : Generated :=
  let o := options c.config
  { log := ["Generated Telegram commands (" ++ name o.framework ++ ", " ++ name o.deliveryMethod ++
      "): " ++ Text.joinTexts ", " (o.commands.map name)]
    result := .ok (.output (output o)) }

def plugin : Plugin where
  card :=
    { id := "telegram-commands"
      name := "Telegram Commands"
      description := "Interactive Telegram command handling via webhooks or polling"
      field := .telegram
      tags := ["telegram", "commands", "webhooks", "grammy"] }
  schema := .telegramCommands
  ports := [{ id := "commands-out", name := "Commands", direction := .output, dataType := .config }]
  generate := generate

end ProjectComposer.BuiltIn.TelegramCommands
