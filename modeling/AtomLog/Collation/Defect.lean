import AtomLog.FieldType
/-!
What can be wrong with an atom of a schema.
-/
namespace AtomLog

inductive Defect
  | duplicateCode (code : Int) (existing : String)
  | unknownMessage (name : String)
  | unsupportedType (field detail : String)
  | nonConsecutiveFieldNumber (field : String) (expected found : Int)
  | attributionChainNotFirst (field : String) (position : Nat)
  | keyValuePairsNotLast (field : String) (position : Nat)
  | duplicateSpecialField (type : FieldType)
  | uidFieldNotInt (field : String) (type : FieldType)
  | multipleUidFields
  | stateFieldNotScalar (field : String) (type : FieldType)
  | multipleExclusiveFields
  | primaryFieldWithoutExclusive
  | stateWithoutPrimaryOrExclusive
  | firstUidNotOnAttributionChain (field : String)
  | invalidAttributionNode
  deriving DecidableEq, Repr, Inhabited

def Defect.message : Defect → String
  | .duplicateCode code existing => s!"duplicate atom code {code}, already used by {existing}"
  | .unknownMessage name => s!"message type {name} is not defined in the schema"
  | .unsupportedType field detail => s!"field {field}: unsupported type ({detail})"
  | .nonConsecutiveFieldNumber field expected found =>
    s!"field {field}: expected field number {expected}, found {found}"
  | .attributionChainNotFirst field position =>
    s!"field {field}: attribution chain must be the first field, found at position {position}"
  | .keyValuePairsNotLast field position =>
    s!"field {field}: key value pairs must be the last field, found at position {position}"
  | .duplicateSpecialField type => s!"more than one {type.name} field"
  | .uidFieldNotInt field type =>
    s!"field {field}: is_uid is only allowed on int32 fields, not {type.name}"
  | .multipleUidFields => "more than one is_uid field"
  | .stateFieldNotScalar field type =>
    s!"field {field}: state fields must be scalars, not {type.name}"
  | .multipleExclusiveFields => "more than one exclusive state field"
  | .primaryFieldWithoutExclusive => "primary fields declared without an exclusive state field"
  | .stateWithoutPrimaryOrExclusive => "state annotations without any primary or exclusive field"
  | .firstUidNotOnAttributionChain field =>
    s!"field {field}: primary_field_first_uid is only allowed on the attribution chain"
  | .invalidAttributionNode =>
    "attribution node must start with an int32 uid and end with a string tag"

/-- A defect of the atom with a name and a code. -/
structure CollationError where
  atom : String
  code : Int
  defect : Defect
  deriving DecidableEq, Repr, Inhabited

def CollationError.message (e : CollationError) : String :=
  s!"atom {e.atom} ({e.code}): {e.defect.message}"

end AtomLog
