import AtomLog.Descriptor.Pool
import AtomLog.Sorted.Set
/-!
Schemas from descriptors: the fields of a container message become entries, and their types become
messages.
-/
namespace AtomLog.Descriptor

/-- Why a pool gives no schema for a container. -/
inductive ContainerError
  | notFound (container : String)
  /-- A field of the container whose type is no message, which makes it no atom. -/
  | nonMessageAtom (container field : String)
  deriving DecidableEq, Repr, Inhabited

def ContainerError.message : ContainerError → String
  | .notFound container => s!"container message {container} not found in descriptor set"
  | .nonMessageAtom container field =>
    s!"field {field} of {container} is not a message and cannot be an atom"

namespace PoolField

/-- The number in a schema, where numbers have 32 bits with sign. -/
def schemaNumber (f : PoolField) : Int :=
  if Bits.isSigned 32 f.number then f.number else Bits.values 31 - 1

def schemaKind (f : PoolField) : FieldKind :=
  match f.kind with
  | .double => .double
  | .float => .float
  | .int32 => .int32
  | .int64 => .int64
  | .uint32 => .uint32
  | .uint64 => .uint64
  | .sint32 => .sint32
  | .sint64 => .sint64
  | .fixed32 => .fixed32
  | .fixed64 => .fixed64
  | .sfixed32 => .sfixed32
  | .sfixed64 => .sfixed64
  | .bool => .bool
  | .string => .string
  | .bytes => .bytes
  | .message _ => if f.isGroup then .group else .message
  | .enum _ => .enum

def toSchemaField (f : PoolField) : SchemaField where
  name := f.name
  number := f.schemaNumber
  kind := f.schemaKind
  repeated := f.repeated
  messageType := f.kind.messageType?
  enumValues := match f.kind with
    | .enum values => values
    | _ => []
  options := rawOptions f.options

/-- The oneof of a field, unless it is there only to track the presence of its fields. -/
def realOneof? (f : PoolField) : Option PoolOneof := f.oneof.filter (fun o => !o.tracked.all id)

/-- The entry of a container field whose type is a message. -/
def entry (f : PoolField) (type : String) : Entry where
  name := f.name
  code := f.schemaNumber
  message := type
  oneof := (f.realOneof?.map PoolOneof.name).getD Entry.pushedGroup
  options := rawOptions f.options

end PoolField

def PoolMessage.toMessage (m : PoolMessage) : Message where
  name := m.name
  doc := m.comment
  fields := m.fields.map PoolField.toSchemaField

def entryOf (container : String) (f : PoolField) : Except ContainerError Entry :=
  match f.kind with
  | .message type => .ok (f.entry type)
  | _ => .error (.nonMessageAtom container f.name)

/-- A schema to which messages are added, and the names of those that have been translated. -/
structure Translation where
  schema : Schema
  translated : SortedSet String

/-- Add a message, unless it has been translated. -/
def Translation.add (t : Translation) (m : PoolMessage) : Translation :=
  if m.name ∈ t.translated then t
  else ⟨t.schema.addMessage m.toMessage, t.translated.insert m.name⟩

namespace Pool

/-- The messages of the fields of messages. -/
def referenced (p : Pool) (ms : List PoolMessage) : List PoolMessage :=
  ms.flatMap (fun m => m.fields.filterMap (fun f => f.kind.messageType?.bind p.message?))

/-- The schema of a container message, whose name may have dots in front: its atoms, and the
messages that they and their fields refer to. -/
def schema (p : Pool) (container : String) : Except ContainerError Schema :=
  let container := TypeName.undotted container
  match p.message? container with
  | none => .error (.notFound container)
  | some m => do
    let entries ← m.fields.mapM (entryOf m.name)
    let atoms := entries.filterMap (fun e => p.message? e.message)
    let start : Translation := ⟨{ container := m.name, entries := entries }, ∅⟩
    let withAtoms := atoms.foldl .add start
    return ((p.referenced atoms).foldl .add withAtoms).schema

end Pool

end AtomLog.Descriptor
