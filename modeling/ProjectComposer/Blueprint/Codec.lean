import ProjectComposer.Blueprint.Basic
import ProjectComposer.Json.Reader
import ProjectComposer.Text.DecimalDigit
import ProjectComposer.Wire.Record

/-!
The JSON form of blueprints: each record with its fields, defaults and bounds, in the order in which
issues are reported.
-/
namespace ProjectComposer
set_option autoImplicit false
open Wire

/-! ## Nodes and edges -/

/-- Where a node lies along an axis unless it says so. -/
def Position.origin : Binary64 :=
  .finite false 0 (-1074)

def Position.codec : Codec Position :=
  (Codec.record "NodePosition" <|
    .field (.plain "x") .number (some origin) [("default", .int 0)] <|
    .field (.plain "y") .number (some origin) [("default", .int 0)] .done).imap
    (fun (x, y, ()) => ⟨x, y⟩) (fun p => (p.x, p.y, ()))

def Node.codec : Codec Node :=
  (Codec.record "BlueprintNode" <|
    .required (.plain "id") .text <|
    .required (.plain "type") .text <|
    .withFresh (.plain "config") .object [] <|
    .withDefault (.plain "position") (.optional Position.codec.elsewhere) none .done).imap
    (fun (id, kind, config, position, ()) => ⟨id, kind, config, position⟩)
    (fun n => (n.id, n.kind, n.config, n.position, ()))

def Endpoint.codec : Codec Endpoint :=
  (Codec.record "EdgeEndpoint" <|
    .required ⟨"node_id", "nodeId"⟩ .text <|
    .required ⟨"port_id", "portId"⟩ .text .done).imap
    (fun (node, port, ()) => ⟨node, port⟩) (fun e => (e.node, e.port, ()))

def Edge.codec : Codec Edge :=
  (Codec.record "BlueprintEdge" <|
    .required (.plain "id") .text <|
    .required (.plain "source") Endpoint.codec.elsewhere <|
    .required (.plain "target") Endpoint.codec.elsewhere .done).imap
    (fun (id, source, target, ()) => ⟨id, source, target⟩)
    (fun e => (e.id, e.source, e.target, ()))

/-! ## Settings -/

instance : Named License where
  all := [.mit, .apache2, .gpl3, .unlicensed]
  name
    | .mit => "MIT"
    | .apache2 => "Apache-2.0"
    | .gpl3 => "GPL-3.0"
    | .unlicensed => "UNLICENSED"

/-- Three runs of decimal digits with dots between them. -/
def isVersion (cs : List Char) : Bool :=
  let parts := Text.splitAt '.' cs
  parts.length = 3 && parts.all fun p => !p.isEmpty && p.all Text.isPatternDigit

def versionPattern : Codec.Pattern :=
  ⟨"^\\d+\\.\\d+\\.\\d+$", isVersion⟩

def Project.codec : Codec Project :=
  (Codec.record "ProjectMetadata" <|
    .required (.plain "name") (.textWith { least := 1, most := some 100 }) <|
    .withDefault (.plain "description") (.optional .text) none <|
    .withDefault (.plain "version") (.textWith { pattern := some versionPattern }) "0.1.0" <|
    .withDefault (.plain "author") (.optional .text) none <|
    .withDefault (.plain "license") .oneOf .mit <|
    .withFresh (.plain "keywords") (.listWith { most := some 10 } .text) [] .done).imap
    (fun (name, description, version, author, license, keywords, ()) =>
      ⟨name, description, version, author, license, keywords⟩)
    (fun p => (p.name, p.description, p.version, p.author, p.license, p.keywords, ()))

def Network.codec : Codec Network :=
  (Codec.record "NetworkConfig" <|
    .required ⟨"chain_id", "chainId"⟩ (.intWith { above := some 0 }) <|
    .required (.plain "name") .text <|
    .withDefault ⟨"rpc_url", "rpcUrl"⟩ (.optional .text) none <|
    .withDefault ⟨"explorer_url", "explorerUrl"⟩ (.optional .text) none <|
    .withDefault ⟨"is_testnet", "isTestnet"⟩ .bool false .done).imap
    (fun (chainId, name, rpcUrl, explorerUrl, isTestnet, ()) =>
      ⟨chainId, name, rpcUrl, explorerUrl, isTestnet⟩)
    (fun n => (n.chainId, n.name, n.rpcUrl, n.explorerUrl, n.isTestnet, ()))

def Settings.codec : Codec Settings :=
  (Codec.record "BlueprintConfig" <|
    .required (.plain "project") Project.codec.elsewhere <|
    .withDefault (.plain "network") (.optional Network.codec.elsewhere) none <|
    .withDefault ⟨"generate_docs", "generateDocs"⟩ .bool true .done).imap
    (fun (project, network, generateDocs, ()) => ⟨project, network, generateDocs⟩)
    (fun s => (s.project, s.network, s.generateDocs, ()))

/-! ## Blueprints -/

def Blueprint.codec : Codec Blueprint :=
  (Codec.record "Blueprint" <|
    .required (.plain "id") .text <|
    .withFresh (.plain "nodes") (.list Node.codec.elsewhere) [] <|
    .withFresh (.plain "edges") (.list Edge.codec.elsewhere) [] <|
    .withDefault (.plain "config") (.optional Settings.codec.elsewhere) none .done).imap
    (fun (id, nodes, edges, settings, ()) => ⟨id, nodes, edges, settings⟩)
    (fun b => (b.id, b.nodes, b.edges, b.settings, ()))

namespace Blueprint

def validate (source : Source) (v : Json) : Except Rejection Blueprint :=
  codec.validate "Blueprint" source v

/-- The settings of a blueprint. The project that stands in for missing ones is read from its name,
so it has to pass the checks of any other project. -/
def resolve (b : Blueprint) : Except Rejection Settings :=
  match b.settings with
  | some s => .ok s
  | none =>
    (Project.codec.validate "ProjectMetadata" .memory
      (.object [("name", .text b.defaultName)])).map fun project => { project }

/-- Reads a blueprint from the text of a JSON document. -/
def ofDocument (text : String) : Except Rejection Blueprint :=
  match Json.parseDocument? text with
  | some v => validate .document v
  | none => .error ⟨"Blueprint", .document, ⟨⟨[], .notJson, .ofJson (.text text)⟩, []⟩⟩

end Blueprint
end ProjectComposer
