import AtomLog.Sorted.Map
import AtomLog.Sorted.Set
/-!
Annotations: facts about a field, or about a whole atom, that are logged with its values.
-/
namespace AtomLog

inductive AnnotationId
  | isUid
  | truncateTimestamp
  | primaryField
  | exclusiveState
  | primaryFieldFirstUid
  | defaultState
  | triggerStateReset
  | stateNested
  | restrictionCategory
  | peripheralDeviceInfo
  | appUsage
  | appActivity
  | healthConnect
  | accessibility
  | systemSearch
  | userEngagement
  | ambientSensing
  | demographicClassification
  deriving DecidableEq, Repr, Inhabited

namespace AnnotationId

/-- The number of an annotation on the wire. -/
def number : AnnotationId → Nat
  | .isUid => 1
  | .truncateTimestamp => 2
  | .primaryField => 3
  | .exclusiveState => 4
  | .primaryFieldFirstUid => 5
  | .defaultState => 6
  | .triggerStateReset => 7
  | .stateNested => 8
  | .restrictionCategory => 9
  | .peripheralDeviceInfo => 10
  | .appUsage => 11
  | .appActivity => 12
  | .healthConnect => 13
  | .accessibility => 14
  | .systemSearch => 15
  | .userEngagement => 16
  | .ambientSensing => 17
  | .demographicClassification => 18

theorem number_injective {a b : AnnotationId} (h : a.number = b.number) : a = b := by
  cases a <;> cases b <;> first | rfl | cases h

/-- In the order of their numbers. -/
def all : List AnnotationId :=
  [.isUid, .truncateTimestamp, .primaryField, .exclusiveState, .primaryFieldFirstUid,
    .defaultState, .triggerStateReset, .stateNested, .restrictionCategory, .peripheralDeviceInfo,
    .appUsage, .appActivity, .healthConnect, .accessibility, .systemSearch, .userEngagement,
    .ambientSensing, .demographicClassification]

/-- Whether the annotation serves to track a state. -/
def isState : AnnotationId → Bool
  | .primaryField | .exclusiveState | .primaryFieldFirstUid | .defaultState | .triggerStateReset
  | .stateNested => true
  | _ => false

def words : AnnotationId → String
  | .isUid => "IS_UID"
  | .truncateTimestamp => "TRUNCATE_TIMESTAMP"
  | .primaryField => "PRIMARY_FIELD"
  | .exclusiveState => "EXCLUSIVE_STATE"
  | .primaryFieldFirstUid => "PRIMARY_FIELD_FIRST_UID"
  | .defaultState => "DEFAULT_STATE"
  | .triggerStateReset => "TRIGGER_STATE_RESET"
  | .stateNested => "STATE_NESTED"
  | .restrictionCategory => "RESTRICTION_CATEGORY"
  | .peripheralDeviceInfo => "FIELD_RESTRICTION_PERIPHERAL_DEVICE_INFO"
  | .appUsage => "FIELD_RESTRICTION_APP_USAGE"
  | .appActivity => "FIELD_RESTRICTION_APP_ACTIVITY"
  | .healthConnect => "FIELD_RESTRICTION_HEALTH_CONNECT"
  | .accessibility => "FIELD_RESTRICTION_ACCESSIBILITY"
  | .systemSearch => "FIELD_RESTRICTION_SYSTEM_SEARCH"
  | .userEngagement => "FIELD_RESTRICTION_USER_ENGAGEMENT"
  | .ambientSensing => "FIELD_RESTRICTION_AMBIENT_SENSING"
  | .demographicClassification => "FIELD_RESTRICTION_DEMOGRAPHIC_CLASSIFICATION"

/-- The constant that generated code uses for the annotation. -/
def constant (a : AnnotationId) : String := "ANNOTATION_ID_" ++ a.words

end AnnotationId

inductive AnnotationValue
  | int (n : Int)
  | bool (b : Bool)
  deriving DecidableEq, Repr, Inhabited

structure Annotation where
  id : AnnotationId
  value : AnnotationValue
  deriving DecidableEq, Repr, Inhabited

namespace Annotation

/-- Annotations are ordered by number, then whole numbers before truth values. -/
def key (a : Annotation) : List Int :=
  (a.id.number : Int) :: match a.value with
    | .int n => [0, n]
    | .bool b => [1, if b then 1 else 0]

theorem key_injective {a b : Annotation} (h : a.key = b.key) : a = b := by
  obtain ⟨i, v⟩ := a
  obtain ⟨j, w⟩ := b
  simp only [key, List.cons.injEq] at h
  obtain ⟨hi, hv⟩ := h
  obtain rfl := AnnotationId.number_injective (Int.ofNat.inj hi)
  cases v with
  | int m =>
    cases w with
    | int n => simp_all
    | bool c => simp at hv
  | bool b =>
    cases w with
    | int n => simp at hv
    | bool c => cases b <;> cases c <;> simp_all

instance : Ord Annotation := ⟨compareOn key⟩

instance : Std.TransOrd Annotation := inferInstanceAs (Std.TransCmp (compareOn key))

instance : Std.LawfulEqOrd Annotation where
  compare_self {a} := show compare a.key a.key = .eq from Std.ReflCmp.compare_self
  eq_of_compare {a b} h :=
    have h : compare a.key b.key = .eq := h
    key_injective (Std.LawfulEqCmp.eq_of_compare h)

end Annotation

/-- The annotations of one field. -/
abbrev AnnotationSet := SortedSet Annotation

/-- The annotations of an atom by field number, where 0 stands for the atom itself. -/
abbrev FieldAnnotations := SortedMap Int AnnotationSet

namespace AnnotationSet

/-- The first whole number that a set holds for an annotation. -/
def int? (s : AnnotationSet) (id : AnnotationId) : Option Int :=
  s.toList.findSome? (fun a =>
    match a.value with
    | .int n => if a.id = id then some n else none
    | .bool _ => none)

/-- Whether a set marks an annotation as true. -/
def flag (s : AnnotationSet) (id : AnnotationId) : Bool := s.toList.contains ⟨id, .bool true⟩

end AnnotationSet

/-- A state field that takes a default value when it is logged with the reset value. -/
structure StateReset where
  resetValue : Int
  defaultValue : Int
  deriving DecidableEq, Repr, Inhabited

/-- There is a reset only where both of its values are given. -/
def StateReset.of? (s : AnnotationSet) : Option StateReset := do
  return ⟨← AnnotationSet.int? s .triggerStateReset, ← AnnotationSet.int? s .defaultState⟩

/-- The field number that stands for the atom itself. -/
def atomNumber : Int := 0

end AtomLog
