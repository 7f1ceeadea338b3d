/-!
The types a logged value can have.
-/
namespace AtomLog

/-- The order of the constructors is the order in which signatures are emitted. -/
inductive FieldType
  | bool
  | int32
  | int64
  | float
  | double
  | string
  | enum
  | bytes
  | attributionChain
  | keyValuePairs
  | boolArray
  | int32Array
  | int64Array
  | floatArray
  | stringArray
  | enumArray
  deriving DecidableEq, Repr, Inhabited

namespace FieldType

def all : List FieldType :=
  [.bool, .int32, .int64, .float, .double, .string, .enum, .bytes, .attributionChain,
    .keyValuePairs, .boolArray, .int32Array, .int64Array, .floatArray, .stringArray, .enumArray]

theorem mem_all (t : FieldType) : t ∈ all := by
  cases t <;> decide

instance decidableForall (p : FieldType → Prop) [DecidablePred p] : Decidable (∀ t, p t) :=
  decidable_of_iff (∀ t ∈ all, p t) ⟨fun h t => h t t.mem_all, fun h t _ => h t⟩

def rank : FieldType → Nat
  | .bool => 0
  | .int32 => 1
  | .int64 => 2
  | .float => 3
  | .double => 4
  | .string => 5
  | .enum => 6
  | .bytes => 7
  | .attributionChain => 8
  | .keyValuePairs => 9
  | .boolArray => 10
  | .int32Array => 11
  | .int64Array => 12
  | .floatArray => 13
  | .stringArray => 14
  | .enumArray => 15

theorem rank_injective {a b : FieldType} (h : a.rank = b.rank) : a = b := by
  cases a <;> cases b <;> first | rfl | cases h

instance : Ord FieldType := ⟨compareOn rank⟩

instance : Std.TransOrd FieldType := inferInstanceAs (Std.TransCmp (compareOn rank))

instance : Std.LawfulEqOrd FieldType where
  compare_self {a} := show compare a.rank a.rank = .eq from Std.ReflCmp.compare_self
  eq_of_compare {a b} h :=
    have h : compare a.rank b.rank = .eq := h
    rank_injective (Std.LawfulEqCmp.eq_of_compare h)

/-- The array of a scalar type, where there is one. -/
def array? : FieldType → Option FieldType
  | .bool => some .boolArray
  | .int32 => some .int32Array
  | .int64 => some .int64Array
  | .float => some .floatArray
  | .string => some .stringArray
  | .enum => some .enumArray
  | _ => none

def isArray : FieldType → Bool
  | .boolArray | .int32Array | .int64Array | .floatArray | .stringArray | .enumArray => true
  | _ => false

/-- Whether the values of the type have names. -/
def isEnum : FieldType → Bool
  | .enum | .enumArray => true
  | _ => false

/-- The type as it is written on the wire, where an enum value is its number. -/
def wire : FieldType → FieldType
  | .enum => .int32
  | .enumArray => .int32Array
  | t => t

def name : FieldType → String
  | .bool => "bool"
  | .int32 => "int32"
  | .int64 => "int64"
  | .float => "float"
  | .double => "double"
  | .string => "string"
  | .enum => "enum"
  | .bytes => "bytes"
  | .attributionChain => "attribution_chain"
  | .keyValuePairs => "key_value_pairs"
  | .boolArray => "bool_array"
  | .int32Array => "int32_array"
  | .int64Array => "int64_array"
  | .floatArray => "float_array"
  | .stringArray => "string_array"
  | .enumArray => "enum_array"

end FieldType

end AtomLog
