import ProjectComposer.Wire.Record

/-!
What a plugin tells about itself: its card, its ports and the kinds of node it depends on.
-/
namespace ProjectComposer
set_option autoImplicit false
open Wire

/-! ## Alternatives -/

inductive Field
  | contracts
  | payments
  | agents
  | app
  | quality
  | telegram
  | intelligence
  | superposition
  | analytics
  deriving DecidableEq, Repr

instance : Named Field where
  all := [.contracts, .payments, .agents, .app, .quality, .telegram, .intelligence,
    .superposition, .analytics]
  name
    | .contracts => "contracts"
    | .payments => "payments"
    | .agents => "agents"
    | .app => "app"
    | .quality => "quality"
    | .telegram => "telegram"
    | .intelligence => "intelligence"
    | .superposition => "superposition"
    | .analytics => "analytics"

inductive Direction
  | input
  | output
  deriving DecidableEq, Repr

instance : Named Direction where
  all := [.input, .output]
  name
    | .input => "input"
    | .output => "output"

/-- What flows through a port; `any` fits every other. -/
inductive DataType
  | contract
  | api
  | types
  | config
  | code
  | any
  deriving DecidableEq, Repr

instance : Named DataType where
  all := [.contract, .api, .types, .config, .code, .any]
  name
    | .contract => "contract"
    | .api => "api"
    | .types => "types"
    | .config => "config"
    | .code => "code"
    | .any => "any"

def DataType.fits (source target : DataType) : Bool :=
  source = .any || target = .any || source = target

/-! ## Records -/

/-- The card of a plugin. -/
structure Card where
  id : String
  name : String
  version : String := "0.1.0"
  description : String := ""
  field : Field
  tags : List String := []
  deriving DecidableEq, Repr

structure Port where
  id : String
  name : String := ""
  direction : Direction
  dataType : DataType := .any
  required : Bool := false
  deriving DecidableEq, Repr

/-- A dependency on every node of a kind; the table maps output ports of the producer to slots. -/
structure Need where
  kind : String
  required : Bool := false
  slots : Table String := []
  deriving DecidableEq, Repr

/-! ## JSON form -/

def Card.codec : Codec Card :=
  (Codec.record "PluginMetadata" <|
    .required (.plain "id") .text <|
    .required (.plain "name") .text <|
    .withDefault (.plain "version") .text "0.1.0" <|
    .withDefault (.plain "description") .text "" <|
    .required (.plain "category") .oneOf <|
    .withFresh (.plain "tags") (.tuple .text) [] .done).imap
    (fun (id, name, version, description, field, tags, ()) =>
      ⟨id, name, version, description, field, tags⟩)
    (fun c => (c.id, c.name, c.version, c.description, c.field, c.tags, ()))

/-- The fields of a port, with a given spelling of the data type. -/
def Port.codecWith (dataType : FieldName) : Codec Port :=
  (Codec.record "PluginPort" <|
    .required (.plain "id") .text <|
    .withDefault (.plain "name") .text "" <|
    .required (.plain "direction") .oneOf <|
    .withDefault dataType .oneOf .any <|
    .withDefault (.plain "required") .bool false .done).imap
    (fun (id, name, direction, dataType, required, ()) => ⟨id, name, direction, dataType, required⟩)
    (fun p => (p.id, p.name, p.direction, p.dataType, p.required, ()))

def Port.codec : Codec Port :=
  Port.codecWith (.plain "data_type")

/-- The form in which the catalogue shows ports. -/
def Port.shownCodec : Codec Port :=
  Port.codecWith (.plain "dataType")

def Need.codecWith (kind slots : FieldName) : Codec Need :=
  (Codec.record "PluginDependency" <|
    .required kind .text <|
    .withDefault (.plain "required") .bool false <|
    .withFresh slots (.map .text) [] .done).imap
    (fun (kind, required, slots, ()) => ⟨kind, required, slots⟩)
    (fun n => (n.kind, n.required, n.slots, ()))

def Need.codec : Codec Need :=
  Need.codecWith (.plain "plugin_id") (.plain "data_mapping")

/-- The form in which the catalogue shows dependencies. -/
def Need.shownCodec : Codec Need :=
  Need.codecWith (.plain "pluginId") (.plain "dataMapping")

end ProjectComposer
