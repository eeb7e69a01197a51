import ProjectComposer.Artifact.Output
import ProjectComposer.Layout.Basic
import ProjectComposer.Number.Numeral
import ProjectComposer.Options.Config
import ProjectComposer.Path.Normal
import ProjectComposer.Plugin.Port
import ProjectComposer.Layout.Routing

/-!
Plugins. A plugin is the record of what a kind of node accepts and produces, with a generator: a
function of the node and the context it runs in. The context shows the outputs of finished producers
and, by slot, those wired to the node. A generator logs lines and either returns something or comes
to no return.
-/
namespace ProjectComposer
set_option autoImplicit false
open Wire

/-! ## Contexts -/

structure Context where
  blueprintId : String
  nodeId : String
  settings : Settings
  layout : Layout
  config : Config
  /-- Outputs of finished producers, by node id in blueprint order. -/
  outputs : Table Output := []
  /-- Outputs wired to a slot, by slot. -/
  inputs : Table (List Output) := []

namespace Context

/-- The outputs wired to a slot; none where the slot is absent. -/
def wired (c : Context) (slot : String) : List Output :=
  (c.inputs.get? slot).getD []

/-- The first output wired to a slot, or a default. -/
def input (c : Context) (slot : String) (default : Option Output := none) : Option Output :=
  match c.wired slot with
  | [] => default
  | o :: _ => some o

end Context

/-! ## Results of generators -/

/-- An error that a generator raised. -/
structure Raised where
  kind : String
  message : String
  deriving DecidableEq, Repr

namespace Raised

def ofRejection (r : Rejection) : Raised :=
  ⟨"ValidationError", r.text⟩

def cancelled : Raised :=
  ⟨"CancelledError", ""⟩

/-- The error of writing an integer of too many digits. -/
def overlong : Raised :=
  ⟨"ValueError", "Exceeds the limit (" ++ toString Numeral.mostDigits ++ " digits) for integer " ++
    "string conversion; use sys.set_int_max_str_digits() to increase the limit"⟩

end Raised

/-- What a generator handed back. -/
inductive Returned
  | output (o : Output)
  /-- An object that may be an output. -/
  | object (members : Json.Object)
  /-- Something else, with the name of its type. -/
  | other (type : String)
  /-- An output put together without its checks, with the error of copying it. -/
  | unchecked (e : Raised)

/-- Why a generator handed nothing back. -/
inductive Abort
  | raised (e : Raised)
  /-- The text of the error cannot be had: asking for it raises another one. -/
  | untold (e : Raised)
  /-- A cancellation, which is no ordinary error. -/
  | cancelled
  /-- The generator is through, and whoever waits for it is never told. -/
  | unheard

structure Generated where
  log : List String := []
  result : Except Abort Returned

/-! ## Plugins -/

structure Plugin where
  card : Card
  schema : ConfigSchema := .free
  ports : List Port := []
  needs : List Need := []
  mappings : Mappings := []
  generate : Node → Context → Generated

namespace Plugin

def id (p : Plugin) : String :=
  p.card.id

/-- The first port with an id. -/
def port? (p : Plugin) (id : String) : Option Port :=
  p.ports.find? fun q => q.id = id

def inputPorts (p : Plugin) : List Port :=
  p.ports.filter fun q => q.direction = .input

def requiredNeeds (p : Plugin) : List Need :=
  p.needs.filter (·.required)

def optionalNeeds (p : Plugin) : List Need :=
  p.needs.filter fun n => !n.required

/-- All that a plugin shows of itself. -/
def describe (p : Plugin) : Json :=
  .object [
    ("metadata", Card.codec.write .snake p.card),
    ("ports", .list (p.ports.map (Port.shownCodec.write .camel))),
    ("dependencies", .list (p.needs.map (Need.shownCodec.write .camel))),
    ("componentPathMappings", .object (p.mappings.map fun m => (m.1, .text (Named.name m.2)))),
    ("configSchema", p.schema.describe)]

end Plugin
end ProjectComposer
