/-!
The kinds of field a message can declare.
-/
namespace AtomLog

inductive FieldKind
  | double
  | float
  | int64
  | uint64
  | int32
  | fixed64
  | fixed32
  | bool
  | string
  | group
  | message
  | bytes
  | uint32
  | enum
  | sfixed32
  | sfixed64
  | sint32
  | sint64
  deriving DecidableEq, Repr, Inhabited

namespace FieldKind

/-- In the order of their wire numbers 1 to 18. -/
def all : List FieldKind :=
  [.double, .float, .int64, .uint64, .int32, .fixed64, .fixed32, .bool, .string, .group, .message,
    .bytes, .uint32, .enum, .sfixed32, .sfixed64, .sint32, .sint64]

/-- The word for the kind in a schema file. -/
def keyword : FieldKind → String
  | .double => "double"
  | .float => "float"
  | .int64 => "int64"
  | .uint64 => "uint64"
  | .int32 => "int32"
  | .fixed64 => "fixed64"
  | .fixed32 => "fixed32"
  | .bool => "bool"
  | .string => "string"
  | .group => "group"
  | .message => "message"
  | .bytes => "bytes"
  | .uint32 => "uint32"
  | .enum => "enum"
  | .sfixed32 => "sfixed32"
  | .sfixed64 => "sfixed64"
  | .sint32 => "sint32"
  | .sint64 => "sint64"

def ofKeyword? (w : String) : Option FieldKind := all.find? (fun k => k.keyword == w)

/-- The kind in messages and listings: its keyword with a capital. -/
def title (k : FieldKind) : String := k.keyword.capitalize

end FieldKind

end AtomLog
