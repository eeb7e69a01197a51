import ProjectComposer.Wire.Record

/-!
Diagnostics: single findings about a blueprint, with what is known of their place.
-/
namespace ProjectComposer
set_option autoImplicit false
open Wire

inductive Level
  | error
  | warning
  deriving DecidableEq, Repr

instance : Named Level where
  all := [.error, .warning]
  name
    | .error => "error"
    | .warning => "warning"

structure Diagnostic where
  level : Level := .error
  code : String
  message : String
  nodeId : Option String := none
  field : Option String := none
  path : Option String := none
  pluginIds : List String := []
  deriving DecidableEq, Repr

def Diagnostic.codec : Codec Diagnostic :=
  (Codec.record "CompilationDiagnostic" <|
    .withDefault (.plain "level") .oneOf .error <|
    .required (.plain "code") .text <|
    .required (.plain "message") .text <|
    .withDefault ⟨"node_id", "nodeId"⟩ (.optional .text) none <|
    .withDefault (.plain "field") (.optional .text) none <|
    .withDefault (.plain "path") (.optional .text) none <|
    .withFresh ⟨"plugin_ids", "pluginIds"⟩ (.list .text) [] .done).imap
    (fun (level, code, message, nodeId, field, path, pluginIds, ()) =>
      ⟨level, code, message, nodeId, field, path, pluginIds⟩)
    (fun d => (d.level, d.code, d.message, d.nodeId, d.field, d.path, d.pluginIds, ()))

def Diagnostic.toJson (d : Diagnostic) : Json :=
  Diagnostic.codec.write .camel d

end ProjectComposer
