import AtomLog.Bits
import AtomLog.Schema.FieldKind
import AtomLog.Schema.OptionKey
/-!
The contents of options messages: the extensions that are set, with their values.
-/
namespace AtomLog.Descriptor

inductive Content
  | bool (b : Bool)
  | int32 (n : Int32)
  | int64 (n : Int64)
  | uint32 (n : UInt32)
  | uint64 (n : UInt64)
  /-- The number of an enum value. -/
  | enumNumber (n : Int32)
  | str (s : String)
  | bytes (bs : List UInt8)
  /-- A number with a fraction, of which only this is kept: whether it is zero. -/
  | fraction (isZero : Bool)
  | list (items : List Content)
  | message (members : List (Nat × Content))
  deriving Inhabited

namespace Content

/-- A whole number as a content of a kind, if the kind holds it. -/
def number? (k : FieldKind) (n : Int) : Option Content :=
  match k with
  | .int32 | .sint32 | .sfixed32 => if Bits.isSigned 32 n then some (.int32 (.ofInt n)) else none
  | .int64 | .sint64 | .sfixed64 => if Bits.isSigned 64 n then some (.int64 (.ofInt n)) else none
  | .uint32 | .fixed32 =>
    if Bits.isUnsigned 32 n then some (.uint32 (.ofNat n.toNat)) else none
  | .uint64 | .fixed64 =>
    if Bits.isUnsigned 64 n then some (.uint64 (.ofNat n.toNat)) else none
  | _ => none

mutual

/-- The option values that a content gives. A list gives one per item. -/
def values : Content → List OptionValue
  | .bool b => [.bool b]
  | .int32 n | .enumNumber n => [.int n.toInt]
  | .int64 n => [.int n.toInt]
  | .uint32 n => [.int n.toNat]
  | .uint64 n => if Bits.isSigned 64 n.toNat then [.int n.toNat] else []
  | .str s => [.str s]
  | .list items => valuesAll items
  | .bytes _ | .fraction _ | .message _ => []

def valuesAll : List Content → List OptionValue
  | [] => []
  | c :: cs => c.values ++ valuesAll cs

end

/-- The options of an extension: a message gives those of its members. -/
def options (extension : Nat) : Content → List RawOption
  | .message members =>
    members.flatMap (fun (field, c) => c.values.map (⟨.nested extension field, ·⟩))
  | c => c.values.map (⟨.number extension, ·⟩)

/-- The items of a list, and none of any other content. -/
def items : Content → List Content
  | .list cs => cs
  | _ => []

/-- The members of a message, and none of any other content. -/
def members : Content → List (Nat × Content)
  | .message ms => ms
  | _ => []

/-- Whether two single values are equal, as far as they are kept. -/
def isSame : Content → Content → Bool
  | .bool a, .bool b => a == b
  | .int32 a, .int32 b => a == b
  | .int64 a, .int64 b => a == b
  | .uint32 a, .uint32 b => a == b
  | .uint64 a, .uint64 b => a == b
  | .enumNumber a, .enumNumber b => a == b
  | .str a, .str b => a == b
  | .bytes a, .bytes b => a == b
  | .fraction a, .fraction b => a && b
  | _, _ => false

end Content

/-- All options of an options message. -/
def rawOptions (extensions : List (Nat × Content)) : List RawOption :=
  extensions.flatMap (fun (extension, c) => c.options extension)

end AtomLog.Descriptor
