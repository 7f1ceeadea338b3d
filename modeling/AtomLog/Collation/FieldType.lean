import AtomLog.Collation.Defect
import AtomLog.Schema.Basic
/-!
The logged type of a schema field.
-/
namespace AtomLog

/-- The scalar type of a kind. Groups and messages have none. -/
def FieldKind.scalar? : FieldKind → Option FieldType
  | .bool => some .bool
  | .int32 | .sint32 | .sfixed32 | .uint32 | .fixed32 => some .int32
  | .int64 | .sint64 | .sfixed64 | .uint64 | .fixed64 => some .int64
  | .float => some .float
  | .double => some .double
  | .string => some .string
  | .enum => some .enum
  | .bytes => some .bytes
  | .group | .message => none

namespace SchemaField

/-- The type of a message field: the well-known messages have their own, and another one is bytes if
it is logged so and not repeated. A repeated attribution node is one chain. -/
def messageFieldType (f : SchemaField) (w : WellKnown) (asBytes : Bool) :
    Except Defect FieldType :=
  let type := f.messageType.getD ""
  if w.isAttributionNode type then .ok .attributionChain
  else if w.isKeyValuePair type then .ok .keyValuePairs
  else if asBytes && !f.repeated then .ok .bytes
  else .error (.unsupportedType f.name s!"nested message {type}")

/-- The type of a field: a repeated scalar is an array. -/
def fieldType (f : SchemaField) (w : WellKnown) (asBytes : Bool) : Except Defect FieldType :=
  if f.kind = .message then f.messageFieldType w asBytes
  else
    match f.kind.scalar? with
    | none => .error (.unsupportedType f.name f.kind.title)
    | some scalar =>
      if !f.repeated then .ok scalar
      else
        match scalar.array? with
        | some array => .ok array
        | none => .error (.unsupportedType f.name s!"repeated {scalar.name}")

end SchemaField

end AtomLog
