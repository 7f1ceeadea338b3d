import AtomLog.Annotation.Basic
import AtomLog.Bits
import AtomLog.Schema.OptionKey
/-!
Which options are known, and what they mean.
-/
namespace AtomLog

/-- Where an option may stand: on an entry of the container or on a field of a message. -/
inductive OptionScope
  | atom
  | field
  deriving DecidableEq, Repr, Inhabited

inductive ValueKind
  | bool
  | int
  | str
  deriving DecidableEq, Repr, Inhabited

inductive OptionTarget
  | annotate (id : AnnotationId)
  | module
  | attributionTag
  | logMode
  | allowFromAnyUid
  deriving DecidableEq, Repr, Inhabited

/-- A known option. `field` is set when the extension holds a message and this is one of its
fields. -/
structure KnownOption where
  number : Nat
  field : Option Nat := none
  name : String
  scope : OptionScope
  kind : ValueKind
  target : OptionTarget
  deriving DecidableEq, Repr, Inhabited

structure Registry where
  options : List KnownOption
  deriving DecidableEq, Repr, Inhabited

namespace Registry

/-- The number of the extension whose message gives the state options by field. -/
def stateFieldOption : Nat := 50000

/-- The options of one state field, given one by one. -/
def flatOptions : List KnownOption :=
  [{ number := 50001, name := "is_uid", scope := .field, kind := .bool,
      target := .annotate .isUid },
    { number := 50002, name := "log_mode", scope := .field, kind := .int, target := .logMode },
    { number := 50010, name := "state_field_primary", scope := .field, kind := .bool,
      target := .annotate .primaryField },
    { number := 50011, name := "state_field_exclusive", scope := .field, kind := .bool,
      target := .annotate .exclusiveState },
    { number := 50012, name := "state_field_primary_first_uid", scope := .field, kind := .bool,
      target := .annotate .primaryFieldFirstUid },
    { number := 50013, name := "state_field_default", scope := .field, kind := .int,
      target := .annotate .defaultState },
    { number := 50014, name := "state_field_reset", scope := .field, kind := .int,
      target := .annotate .triggerStateReset },
    { number := 50015, name := "state_field_nested", scope := .field, kind := .bool,
      target := .annotate .stateNested },
    { number := 50016, name := "attribution_tag", scope := .field, kind := .bool,
      target := .attributionTag },
    { number := 500004, name := "module", scope := .atom, kind := .str, target := .module },
    { number := 500005, name := "truncate_timestamp", scope := .atom, kind := .bool,
      target := .annotate .truncateTimestamp },
    { number := 500006, name := "restriction_category", scope := .atom, kind := .int,
      target := .annotate .restrictionCategory },
    { number := 500007, name := "allow_from_any_uid", scope := .atom, kind := .bool,
      target := .allowFromAnyUid }]

def nestedOption (field : Nat) (name : String) (kind : ValueKind) (id : AnnotationId) :
    KnownOption :=
  { number := stateFieldOption, field := some field, name := "state_field_option." ++ name,
    scope := .field, kind := kind, target := .annotate id }

/-- The state options again, as fields of one message. -/
def nestedOptions : List KnownOption :=
  [nestedOption 1 "primary_field" .bool .primaryField,
    nestedOption 2 "exclusive_state" .bool .exclusiveState,
    nestedOption 3 "primary_field_first_uid" .bool .primaryFieldFirstUid,
    nestedOption 4 "default_state_value" .int .defaultState,
    nestedOption 5 "trigger_state_reset_value" .int .triggerStateReset,
    nestedOption 6 "nested" .bool .stateNested]

def restriction (number : Nat) (name : String) (id : AnnotationId) : KnownOption :=
  { number := number, name := "field_restriction_" ++ name, scope := .field, kind := .bool,
    target := .annotate id }

/-- One option per field restriction. -/
def restrictionOptions : List KnownOption :=
  [restriction 50030 "peripheral_device_info" .peripheralDeviceInfo,
    restriction 50031 "app_usage" .appUsage,
    restriction 50032 "app_activity" .appActivity,
    restriction 50033 "health_connect" .healthConnect,
    restriction 50034 "accessibility" .accessibility,
    restriction 50035 "system_search" .systemSearch,
    restriction 50036 "user_engagement" .userEngagement,
    restriction 50037 "ambient_sensing" .ambientSensing,
    restriction 50038 "demographic_classification" .demographicClassification]

def standard : Registry := ⟨flatOptions ++ nestedOptions ++ restrictionOptions⟩

end Registry

namespace KnownOption

/-- Whether a key addresses the option. -/
def hasKey (o : KnownOption) : OptionKey → Bool
  | .number n => o.number == n && o.field.isNone
  | .nested e f => o.number == e && o.field == some f
  | .name s => o.name == s

end KnownOption

/-- What an option asks for. -/
inductive Meaning
  | annotate (a : Annotation)
  | module (name : String)
  | attributionTag
  | logMode (mode : Int)
  | allowFromAnyUid
  deriving DecidableEq, Repr, Inhabited

namespace OptionTarget

/-- What a value of the expected kind means for a target. A false marker means nothing, and neither
does an annotation value beyond 32 bits. -/
def meaning? (t : OptionTarget) : OptionValue → Option Meaning
  | .bool false => none
  | .bool true =>
    match t with
    | .annotate id => some (.annotate ⟨id, .bool true⟩)
    | .attributionTag => some .attributionTag
    | .allowFromAnyUid => some .allowFromAnyUid
    | .module | .logMode => none
  | .int n =>
    match t with
    | .logMode => some (.logMode n)
    | .annotate id => if Bits.isSigned 32 n then some (.annotate ⟨id, .int n⟩) else none
    | _ => none
  | .str s =>
    match t with
    | .module => some (.module s)
    | _ => none

end OptionTarget

def OptionValue.kind : OptionValue → ValueKind
  | .bool _ => .bool
  | .int _ => .int
  | .str _ => .str

namespace Registry

/-- The first option that a key addresses. -/
def find? (r : Registry) (key : OptionKey) : Option KnownOption := r.options.find? (·.hasKey key)

/-- What an option means at a place: nothing if it is unknown, belongs elsewhere, or has a value of
another kind. -/
def meaning? (r : Registry) (scope : OptionScope) (o : RawOption) : Option Meaning :=
  match r.find? o.key with
  | none => none
  | some known =>
    if known.scope = scope ∧ known.kind = o.value.kind then known.target.meaning? o.value else none

end Registry

/-- The options of an entry. -/
structure AtomOptions where
  annotations : AnnotationSet := ∅
  modules : SortedSet String := ∅
  allowFromAnyUid : Bool := false
  deriving Inhabited

/-- The options of a field. -/
structure FieldOptions where
  annotations : AnnotationSet := ∅
  attributionTag : Bool := false
  logMode : Option Int := none
  deriving Inhabited

namespace AtomOptions

def add (o : AtomOptions) : Meaning → AtomOptions
  | .annotate a => { o with annotations := o.annotations.insert a }
  | .module m => { o with modules := o.modules.insert m }
  | .allowFromAnyUid => { o with allowFromAnyUid := true }
  | .attributionTag | .logMode _ => o

def read (r : Registry) (os : List RawOption) : AtomOptions :=
  (os.filterMap (r.meaning? .atom)).foldl add {}

end AtomOptions

namespace FieldOptions

def add (o : FieldOptions) : Meaning → FieldOptions
  | .annotate a => { o with annotations := o.annotations.insert a }
  | .attributionTag => { o with attributionTag := true }
  | .logMode m => { o with logMode := some m }
  | .module _ | .allowFromAnyUid => o

def read (r : Registry) (os : List RawOption) : FieldOptions :=
  (os.filterMap (r.meaning? .field)).foldl add {}

/-- The log mode under which a nested message is written as bytes. -/
def bytesMode : Int := 2

def logAsBytes (o : FieldOptions) : Bool := o.logMode == some bytesMode

end FieldOptions

end AtomLog
