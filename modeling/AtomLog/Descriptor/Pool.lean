import AtomLog.Bits
import AtomLog.Descriptor.Check
import AtomLog.Schema.Basic
/-!
Pools: the messages of a descriptor set, with every reference resolved.

Every message type of a field is the name of a message in the pool, and the fields of a message have
distinct numbers in ascending order.
-/
namespace AtomLog.Descriptor

/-- What a field holds. A message comes with its full name, and an enum with its values. -/
inductive PoolKind
  | double
  | float
  | int32
  | int64
  | uint32
  | uint64
  | sint32
  | sint64
  | fixed32
  | fixed64
  | sfixed32
  | sfixed64
  | bool
  | string
  | bytes
  | message (type : String)
  | enum (values : List EnumValue)
  deriving DecidableEq, Repr, Inhabited

def PoolKind.messageType? : PoolKind → Option String
  | .message type => some type
  | _ => none

structure PoolOneof where
  name : String
  /-- For each of its fields, whether the field tracks its own presence. -/
  tracked : List Bool
  deriving DecidableEq, Repr, Inhabited

structure PoolField where
  name : String
  number : Nat
  kind : PoolKind
  /-- Whether a message is written as a group. -/
  isGroup : Bool := false
  repeated : Bool := false
  oneof : Option PoolOneof := none
  options : List (Nat × Content) := []
  deriving Inhabited

structure PoolMessage where
  name : String
  comment : String
  fields : List PoolField
  deriving Inhabited

abbrev PoolMessages := SortedMap String PoolMessage

/-- What holds of the messages of every pool. -/
structure PoolMessages.Sound (ms : PoolMessages) : Prop where
  named : ∀ e ∈ ms.entries, e.2.name = e.1
  ascending : ∀ e ∈ ms.entries, (e.2.fields.map PoolField.number).Pairwise (· < ·)
  small : ∀ e ∈ ms.entries, ∀ f ∈ e.2.fields, f.number < Bits.values 29
  closed : ∀ e ∈ ms.entries, ∀ f ∈ e.2.fields, ∀ n ∈ f.kind.messageType?, ms.contains n

instance (ms : PoolMessages) : Decidable ms.Sound :=
  decidable_of_iff
    ((∀ e ∈ ms.entries, e.2.name = e.1) ∧
      (∀ e ∈ ms.entries, (e.2.fields.map PoolField.number).Pairwise (· < ·)) ∧
      (∀ e ∈ ms.entries, ∀ f ∈ e.2.fields, f.number < Bits.values 29) ∧
      (∀ e ∈ ms.entries, ∀ f ∈ e.2.fields, ∀ n ∈ f.kind.messageType?, ms.contains n))
    ⟨fun ⟨a, b, c, d⟩ => ⟨a, b, c, d⟩, fun ⟨a, b, c, d⟩ => ⟨a, b, c, d⟩⟩

structure Pool where
  messages : PoolMessages
  sound : messages.Sound

/-- Put an enum value behind those with smaller numbers, and before the last one with its own. -/
def insertValue (v : EnumValue) : List EnumValue → List EnumValue
  | [] => [v]
  | w :: ws =>
    if v.number < w.number then v :: w :: ws
    else if v.number = w.number ∧ ws.all (fun u => u.number ≠ v.number) then v :: w :: ws
    else w :: insertValue v ws

def sortValues (vs : List EnumValueDecl) : List EnumValue :=
  vs.foldl (fun ws v => insertValue ⟨v.number, v.name⟩ ws) []

namespace Files

def byNumber (ds : List FieldDecl) : List FieldDecl :=
  ds.mergeSort (fun a b => a.number ≤ b.number)

def oneofOf (m : MessageDecl) (d : FieldDecl) : Option PoolOneof := do
  let n ← d.oneof
  let oneof ← m.oneofs[n.toNat]?
  let fields := m.fields.filter (fun d' => d'.oneof == some n)
  return ⟨oneof.name, fields.map FieldDecl.tracked⟩

def kindOf (s : Files) (t : ResolvedType) : PoolKind :=
  match t.kind with
  | .double => .double
  | .float => .float
  | .int32 => .int32
  | .int64 => .int64
  | .uint32 => .uint32
  | .uint64 => .uint64
  | .sint32 => .sint32
  | .sint64 => .sint64
  | .fixed32 => .fixed32
  | .fixed64 => .fixed64
  | .sfixed32 => .sfixed32
  | .sfixed64 => .sfixed64
  | .bool => .bool
  | .string => .string
  | .bytes => .bytes
  | .message | .group => .message (t.name.getD "")
  | .enum => .enum (sortValues ((t.name.map s.enumValues).getD []))

def poolField (s : Files) (ts : Types) (f : FileDecl) (m : Placed) (d : FieldDecl) : PoolField :=
  let type := s.typeOf f (qualify m.fullName d.name) d
  { name := d.name
    number := d.number.toNat
    kind := s.kindOf type
    isGroup := type.kind == .group
    repeated := d.repeated
    oneof := oneofOf m.decl d
    options := s.fieldOptions ts f m.fullName d }

/-- The comment before a message: that of the first place with its path. -/
def commentAt (f : FileDecl) (path : List Int) : String :=
  ((f.locations.find? (·.path == path)).bind Location.comment).getD ""

def poolMessages (s : Files) : PoolMessages :=
  let ts := s.types
  .ofList (s.files.flatMap (fun f => f.placed.map (fun m =>
    (m.fullName,
      { name := m.fullName
        comment := commentAt f m.path
        fields := (byNumber m.decl.fields).map (s.poolField ts f m) }))))

end Files

namespace Pool

def ofFiles? (s : Files) : Option Pool :=
  let ms := s.poolMessages
  if h : ms.Sound then some ⟨ms, h⟩ else none

/-- Read the bytes of a descriptor set. -/
def read? (bs : Wire.Bytes) : Option Pool := do
  ofFiles? (← Files.ofDecls? (← Reader.files? bs))

def message? (p : Pool) (name : String) : Option PoolMessage := p.messages.get? name

end Pool

end AtomLog.Descriptor
