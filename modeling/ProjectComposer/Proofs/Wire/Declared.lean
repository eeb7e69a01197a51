import ProjectComposer.Blueprint.Codec
import ProjectComposer.Options.NftContract
import ProjectComposer.Wire.Shape

/-!
The records that are exchanged, as shapes: each field under its name in code and its name on the
wire, with its rule and with what stands for it where it is left out. A field with one name has the
same one in both.
-/
namespace ProjectComposer.Declared
set_option autoImplicit false
open Wire

/-! ## Fields -/

/-- A field that has to be there. -/
def required (snake camel : String) (shape : Shape) (rest : FieldShapes) : FieldShapes :=
  .field ⟨snake, camel⟩ shape none rest

def withDefault (snake camel : String) (shape : Shape) (d : Value) (rest : FieldShapes) :
    FieldShapes :=
  .field ⟨snake, camel⟩ shape (some d) rest

def text : Shape :=
  .text {}

/-- A text of at least one character, and of at most so many. -/
def name (most : Option Nat) : Shape :=
  .text { least := 1, most := most }

/-- Texts that are there unless left out or `null`. -/
def optionalText : Shape :=
  .optional text

def texts (l : List String) : Value :=
  .list (l.map .text)

/-! ## Blueprints -/

def position : Shape := .record <|
  withDefault "x" "x" .number (.number Position.origin) <|
  withDefault "y" "y" .number (.number Position.origin) .done

def node : Shape := .record <|
  required "id" "id" text <|
  required "type" "type" text <|
  withDefault "config" "config" .object (.object []) <|
  withDefault "position" "position" (.optional position) .absent .done

def endpoint : Shape := .record <|
  required "node_id" "nodeId" text <|
  required "port_id" "portId" text .done

def edge : Shape := .record <|
  required "id" "id" text <|
  required "source" "source" endpoint <|
  required "target" "target" endpoint .done

def project : Shape := .record <|
  required "name" "name" (name (some 100)) <|
  withDefault "description" "description" optionalText .absent <|
  withDefault "version" "version" (.text { pattern := some versionPattern }) (.text "0.1.0") <|
  withDefault "author" "author" optionalText .absent <|
  withDefault "license" "license" (.oneOf ["MIT", "Apache-2.0", "GPL-3.0", "UNLICENSED"])
    (.text "MIT") <|
  withDefault "keywords" "keywords" (.list { most := some 10 } text) (texts []) .done

def network : Shape := .record <|
  required "chain_id" "chainId" (.int { above := some 0 }) <|
  required "name" "name" text <|
  withDefault "rpc_url" "rpcUrl" optionalText .absent <|
  withDefault "explorer_url" "explorerUrl" optionalText .absent <|
  withDefault "is_testnet" "isTestnet" .bool (.bool false) .done

def settings : Shape := .record <|
  required "project" "project" project <|
  withDefault "network" "network" (.optional network) .absent <|
  withDefault "generate_docs" "generateDocs" .bool (.bool true) .done

def blueprint : Shape := .record <|
  required "id" "id" text <|
  withDefault "nodes" "nodes" (.list {} node) (.list []) <|
  withDefault "edges" "edges" (.list {} edge) (.list []) <|
  withDefault "config" "config" (.optional settings) .absent .done

/-! ## Outputs -/

def category : Shape := .oneOf [
  "frontend-app", "frontend-components", "frontend-hooks", "frontend-lib", "frontend-types",
  "frontend-styles", "frontend-public", "backend-routes", "backend-services",
  "backend-middleware", "backend-lib", "backend-types", "contract", "contract-test",
  "contract-source", "contract-scripts", "docs", "root", "shared-types"]

def file : Shape := .record <|
  required "path" "path" text <|
  required "content" "content" text <|
  withDefault "category" "category" (.optional category) .absent .done

def envVar : Shape := .record <|
  required "key" "key" (name none) <|
  withDefault "description" "description" text (.text "") <|
  withDefault "required" "required" .bool (.bool true) <|
  withDefault "default_value" "defaultValue" optionalText .absent <|
  withDefault "secret" "secret" .bool (.bool false) .done

def script : Shape := .record <|
  required "name" "name" (name none) <|
  required "command" "command" text <|
  withDefault "description" "description" optionalText .absent .done

def doc : Shape := .record <|
  required "path" "path" text <|
  required "title" "title" text <|
  required "content" "content" text .done

def dependency : Shape := .record <|
  required "name" "name" (name none) <|
  required "version" "version" text <|
  withDefault "dev" "dev" .bool (.bool false) .done

def output : Shape := .record <|
  withDefault "files" "files" (.list {} file) (.list []) <|
  withDefault "env_vars" "envVars" (.list {} envVar) (.list []) <|
  withDefault "scripts" "scripts" (.list {} script) (.list []) <|
  withDefault "docs" "docs" (.list {} doc) (.list []) <|
  withDefault "dependencies" "dependencies" (.list {} dependency) (.list []) .done

/-! ## Trees -/

/-- The nodes that a merged artifact comes from. -/
def withOrigins : FieldShapes :=
  withDefault "origins" "origins" (.list {} text) (.list []) .done

def mergedEnvVar : Shape := .record <|
  required "key" "key" text <|
  withDefault "description" "description" text (.text "") <|
  withDefault "required" "required" .bool (.bool false) <|
  withDefault "default_value" "defaultValue" optionalText .absent <|
  withDefault "secret" "secret" .bool (.bool false) withOrigins

def mergedScript : Shape := .record <|
  required "name" "name" text <|
  required "command" "command" text <|
  withDefault "description" "description" optionalText .absent withOrigins

def docEntry : Shape := .record <|
  required "path" "path" text <|
  required "title" "title" text withOrigins

def mergedDependency : Shape := .record <|
  required "name" "name" text <|
  required "version" "version" text <|
  withDefault "dev" "dev" .bool (.bool false) withOrigins

def tree : Shape := .record <|
  withDefault "files" "files" (.map text) (.map []) <|
  withDefault "origins" "origins" (.map (.list {} text)) (.map []) <|
  withDefault "env_vars" "envVars" (.list {} mergedEnvVar) (.list []) <|
  withDefault "scripts" "scripts" (.list {} mergedScript) (.list []) <|
  withDefault "docs" "docs" (.list {} docEntry) (.list []) <|
  withDefault "dependencies" "dependencies" (.list {} mergedDependency) (.list []) <|
  withDefault "layers" "layers" (.list {} (.list {} text)) (.list []) .done

/-! ## Diagnostics -/

def diagnostic : Shape := .record <|
  withDefault "level" "level" (.oneOf ["error", "warning"]) (.text "error") <|
  required "code" "code" text <|
  required "message" "message" text <|
  withDefault "node_id" "nodeId" optionalText .absent <|
  withDefault "field" "field" optionalText .absent <|
  withDefault "path" "path" optionalText .absent <|
  withDefault "plugin_ids" "pluginIds" (.list {} text) (.list []) .done

/-! ## Options -/

/-- The options of a kind of node, with those of every kind in front. -/
def options (rest : FieldShapes) : Shape := .record <|
  withDefault "label" "label" (.optional (name (some 100))) .absent <|
  withDefault "description" "description" (.optional (.text { most := some 500 })) .absent rest

def frontendScaffold : Shape := options <|
  withDefault "framework" "framework" (.oneOf ["nextjs", "vite-react", "remix"])
    (.text "nextjs") <|
  withDefault "styling" "styling" (.oneOf ["tailwind", "css-modules", "styled-components"])
    (.text "tailwind") <|
  withDefault "web3_provider" "web3Provider" (.oneOf ["wagmi", "ethers", "viem"])
    (.text "wagmi") <|
  withDefault "wallet_connect" "walletConnect" .bool (.bool true) <|
  withDefault "rainbow_kit" "rainbowKit" .bool (.bool true) <|
  withDefault "siwe_auth" "siweAuth" .bool (.bool false) <|
  withDefault "include_contracts" "includeContracts" .bool (.bool true) <|
  withDefault "generate_contract_hooks" "generateContractHooks" .bool (.bool true) <|
  withDefault "project_structure" "projectStructure" (.oneOf ["app-router", "pages-router"])
    (.text "app-router") <|
  withDefault "src_directory" "srcDirectory" .bool (.bool true) <|
  withDefault "state_management" "stateManagement" (.oneOf ["tanstack-query", "zustand", "none"])
    (.text "tanstack-query") <|
  withDefault "ssr_enabled" "ssrEnabled" .bool (.bool true) <|
  withDefault "dark_mode_support" "darkModeSupport" .bool (.bool true) <|
  withDefault "app_name" "appName" (name (some 100)) (.text "My DApp") .done

def walletAuth : Shape := options <|
  withDefault "provider" "provider" (.oneOf ["rainbowkit", "web3modal", "custom"])
    (.text "rainbowkit") <|
  withDefault "wallet_connect_enabled" "walletConnectEnabled" .bool (.bool true) <|
  withDefault "siwe_enabled" "siweEnabled" .bool (.bool true) <|
  withDefault "social_logins" "socialLogins"
    (.list {} (.oneOf ["google", "twitter", "discord", "github"])) (texts []) <|
  withDefault "session_persistence" "sessionPersistence" .bool (.bool true) <|
  withDefault "app_name" "appName" (.optional (name (some 100))) .absent .done

def nftContract : Shape := options <|
  withDefault "collection_name" "collectionName" (name (some 64)) (.text "My NFT Collection") <|
  withDefault "collection_symbol" "collectionSymbol"
    (.text { least := 1, most := some 11, pattern := some Options.NftContract.symbolPattern })
    (.text "MNFT") <|
  withDefault "base_uri" "baseUri" text (.text "https://api.example.com/metadata/") <|
  withDefault "network" "network" (.oneOf ["arbitrum", "arbitrum-sepolia"])
    (.text "arbitrum-sepolia") <|
  withDefault "features" "features"
    (.list {}
      (.oneOf ["ownable", "mintable", "burnable", "pausable", "enumerable", "uri-storage"]))
    (texts ["ownable", "mintable", "burnable", "pausable", "enumerable"]) <|
  withDefault "is_deployed" "isDeployed" .bool (.bool false) <|
  withDefault "contract_address" "contractAddress"
    (.optional (.text { pattern := some Options.NftContract.addressPattern })) .absent .done

def telegramNotifications : Shape := options <|
  withDefault "notification_types" "notificationTypes"
    (.list {}
      (.oneOf ["transaction", "price-alert", "whale-alert", "nft-activity", "defi-position",
        "governance", "contract-event", "custom"]))
    (texts ["transaction"]) <|
  withDefault "template_format" "templateFormat" (.oneOf ["HTML", "Markdown", "MarkdownV2"])
    (.text "HTML") .done

def telegramCommands : Shape := options <|
  withDefault "framework" "framework" (.oneOf ["grammy", "telegraf"]) (.text "grammy") <|
  withDefault "delivery_method" "deliveryMethod" (.oneOf ["webhook", "polling"])
    (.text "webhook") <|
  withDefault "commands" "commands"
    (.list { least := 1 }
      (.oneOf ["start", "help", "balance", "wallet", "subscribe", "unsubscribe", "settings",
        "status"]))
    (texts ["start", "help"]) <|
  withDefault "rate_limit_enabled" "rateLimitEnabled" .bool (.bool true) <|
  withDefault "chat_flow_enabled" "chatFlowEnabled" .bool (.bool false) .done

def qualityGates : Shape := options <|
  withDefault "ci_provider" "ciProvider" (.oneOf ["github-actions", "gitlab-ci", "circleci"])
    (.text "github-actions") <|
  withDefault "test_framework" "testFramework" (.oneOf ["vitest", "jest", "mocha"])
    (.text "vitest") <|
  withDefault "linter" "linter" (.oneOf ["eslint", "biome"]) (.text "biome") <|
  withDefault "formatter" "formatter" (.oneOf ["prettier", "biome"]) (.text "biome") <|
  withDefault "typecheck" "typecheck" .bool (.bool true) <|
  withDefault "pre_commit_hooks" "preCommitHooks" .bool (.bool true) <|
  withDefault "coverage_threshold" "coverageThreshold" (.int { least := some 0, most := some 100 })
    (.int 80) <|
  withDefault "security_scanning" "securityScanning" .bool (.bool true) <|
  withDefault "dependency_audit" "dependencyAudit" .bool (.bool true) .done

/-- What is validated on its own, other records being parts of these. -/
def records : List Shape :=
  [blueprint, output, tree, diagnostic, frontendScaffold, walletAuth, nftContract,
    telegramNotifications, telegramCommands, qualityGates]

end ProjectComposer.Declared
