import AtomLog.Document.Text
import AtomLog.Schema.Basic
import AtomLog.Schema.Options
/-!
Schema files: the shapes in which a schema and its parts are written.
-/
namespace AtomLog

namespace FieldKind

def ofName (name : String) : Except Misfit FieldKind :=
  match ofKeyword? name with
  | some k => .ok k
  | none => .error (.unknownVariant name (all.map keyword))

/-- The value beside the keyword where a kind is written as a table. -/
def fitNothing : Fit Unit
  | .toml, .list [] | .toml, .table [] => .ok ()
  | .toml, _ => .error .malformed
  | _, .null => .ok ()
  | _, d => .error (d.unexpected "unit")

/-- A kind is written as its keyword, or as a table with that key only and no value. -/
def fit : Fit FieldKind
  | _, .str s => ofName s
  | s, .table [(k, v)] => do
    let s ← s.enter
    let kind ← ofName (← k.key)
    fitNothing s v
    return kind
  | .jsonText room, .table ((k, v) :: _) => do
    let s ← Setting.enter (.jsonText room)
    let _ ← ofName (← k.key)
    fitNothing s v
    .error .malformed
  | .jsonValue, .table _ =>
    .error (.wrongValue "map" "map with a single key")
  | .jsonValue, d => .error (d.unexpected "string or map")
  | _, _ => .error .malformed

end FieldKind

namespace EnumValue

def shape : Shape EnumValue where
  title := "struct EnumValue"
  start := ⟨0, ""⟩
  slots :=
    [.of "number" true .int32 (fun v n => { v with number := n }),
      .of "name" true .string (fun v s => { v with name := s })]

end EnumValue

def optionsFit : Fit (List RawOption) := fun s d => (OptionTable.fit s d).map OptionTable.flatten

namespace SchemaField

def shape : Shape SchemaField where
  title := "struct SchemaField"
  start := { name := "", number := 0, kind := .double }
  slots :=
    [.of "name" true .string (fun f s => { f with name := s }),
      .of "number" true .int32 (fun f n => { f with number := n }),
      .of "kind" true FieldKind.fit (fun f k => { f with kind := k }),
      .of "repeated" false .boolean (fun f b => { f with repeated := b }),
      .of "message_type" false (.optional .string) (fun f s => { f with messageType := s }),
      .of "enum_values" false (.list EnumValue.shape.fit) (fun f vs => { f with enumValues := vs }),
      .of "options" false optionsFit (fun f os => { f with options := os })]

end SchemaField

namespace Message

def shape : Shape Message where
  title := "struct SchemaMessage"
  start := { name := "" }
  slots :=
    [.of "name" false .string (fun m s => { m with name := s }),
      .of "doc" false .string (fun m s => { m with doc := s }),
      .of "fields" false (.list SchemaField.shape.fit) (fun m fs => { m with fields := fs })]

end Message

namespace Entry

def shape : Shape Entry where
  title := "struct AtomEntry"
  start := { name := "", code := 0, message := "" }
  slots :=
    [.of "name" true .string (fun e s => { e with name := s }),
      .of "code" true .int32 (fun e n => { e with code := n }),
      .of "message" true .string (fun e s => { e with message := s }),
      .of "oneof" false .string (fun e s => { e with oneof := s }),
      .of "options" false optionsFit (fun e os => { e with options := os })]

end Entry

namespace WellKnown

def shape : Shape WellKnown where
  title := "struct WellKnownTypes"
  start := {}
  slots :=
    [.of "attribution_node" false .string (fun w s => { w with attributionNode := s }),
      .of "key_value_pair" false .string (fun w s => { w with keyValuePair := s })]

end WellKnown

namespace Schema

def shape : Shape Schema where
  title := "struct AtomSchema"
  start := { container := defaultContainer }
  slots :=
    [.of "container" false .string (fun s c => { s with container := c }),
      .of "atoms" false (.list Entry.shape.fit) (fun s es => { s with entries := es }),
      .of "messages" false (.map Message.shape.fit) (fun s ms => { s with messages := ms }),
      .of "well_known" false WellKnown.shape.fit (fun s w => { s with wellKnown := w })]

def ofJson (text : String) : Except Misfit Schema := (shape.fit.ofJson text).map nameMessages

def ofToml (text : String) : Except Misfit Schema := (shape.fit.ofToml text).map nameMessages

end Schema

end AtomLog
