import AtomLog.Annotation.Registry
import AtomLog.Atom.Basic
import AtomLog.Collation.FieldType
/-!
Building an atom's fields from those of its message, one by one in the order of their numbers.
-/
namespace AtomLog

/-- A field of a schema with what its options say and its logged type. -/
structure ReadField where
  field : SchemaField
  options : FieldOptions
  type : FieldType
  deriving Inhabited

namespace Collation

def requireScalar (name : String) (t : FieldType) : Except Defect Unit :=
  if t.isArray || t == .attributionChain || t == .keyValuePairs || t == .bytes then
    .error (.stateFieldNotScalar name t)
  else .ok ()

/-- Take over what one annotation of field `number` says of the whole atom. -/
def annotateAtom (name : String) (number : Int) (t : FieldType) (a : Atom) (n : Annotation) :
    Except Defect Atom :=
  match n.id, n.value with
  | .isUid, _ =>
    if t ≠ .int32 ∧ t ≠ .int32Array then .error (.uidFieldNotInt name t)
    else if a.uidField.isSome then .error .multipleUidFields
    else .ok { a with uidField := some number }
  | .primaryField, _ => do
    requireScalar name t
    return { a with primaryFields := a.primaryFields ++ [number] }
  | .exclusiveState, _ => do
    requireScalar name t
    if a.exclusiveField.isSome then .error .multipleExclusiveFields
    else .ok { a with exclusiveField := some number }
  | .primaryFieldFirstUid, _ =>
    if t ≠ .attributionChain then .error (.firstUidNotOnAttributionChain name)
    else .ok { a with primaryFields := a.primaryFields ++ [Atom.firstUid] }
  | .defaultState, .int v => .ok { a with defaultState := some v }
  | .triggerStateReset, .int v => .ok { a with triggerStateReset := some v }
  | .stateNested, _ => .ok { a with nested := true }
  | _, _ => .ok a

/-- A chain stands first and key-value pairs stand last, each at most once. `index` counts the
fields before this one, and `count` all of them. -/
def checkPlace (count index : Nat) (name : String) (t : FieldType) (a : Atom) :
    Except Defect Unit :=
  match t with
  | .attributionChain =>
    if a.hasType t then .error (.duplicateSpecialField t)
    else if index ≠ 0 then .error (.attributionChainNotFirst name (index + 1))
    else .ok ()
  | .keyValuePairs =>
    if a.hasType t then .error (.duplicateSpecialField t)
    else if index + 1 ≠ count then .error (.keyValuePairsNotLast name (index + 1))
    else .ok ()
  | _ => .ok ()

def readField (r : Registry) (w : WellKnown) (index : Nat) (f : SchemaField) :
    Except Defect ReadField := do
  if f.number ≠ index + 1 then
    throw (.nonConsecutiveFieldNumber f.name (index + 1) f.number)
  let options := FieldOptions.read r f.options
  return ⟨f, options, ← f.fieldType w options.logAsBytes⟩

/-- The named values of an enum field: of two with one number the later counts. -/
def enumNames (t : FieldType) (vs : List EnumValue) : SortedMap Int String :=
  if t.isEnum then .ofList (vs.map (fun v => (v.number, v.name))) else ∅

def appendField (f : ReadField) (a : Atom) : Atom :=
  let number := f.field.number
  { a with
    fields := a.fields ++ [⟨f.field.name, f.type, enumNames f.type f.field.enumValues⟩]
    annotations :=
      if f.options.annotations.isEmpty then a.annotations
      else a.annotations.insert number f.options.annotations
    binaryFields := if f.type = .bytes then a.binaryFields ++ [number] else a.binaryFields }

/-- An atom in the making, with the last string field marked as an attribution tag. -/
structure Draft where
  atom : Atom
  tagField : Option Int := none
  deriving Inhabited

def addField (r : Registry) (w : WellKnown) (count index : Nat) (f : SchemaField) (d : Draft) :
    Except Defect Draft := do
  let f ← readField r w index f
  checkPlace count index f.field.name f.type d.atom
  let a ← f.options.annotations.toList.foldlM
    (annotateAtom f.field.name f.field.number f.type) d.atom
  return {
    atom := appendField f a
    tagField :=
      if f.options.attributionTag && f.type == .string then some f.field.number
      else d.tagField }

def addFields (r : Registry) (w : WellKnown) (count : Nat) :
    Nat → List SchemaField → Draft → Except Defect Draft
  | _, [], d => .ok d
  | index, f :: fs, d => do addFields r w count (index + 1) fs (← addField r w count index f d)

/-- A primary field needs an exclusive one, and any other hint at a state needs one of them. -/
def checkState (a : Atom) : Except Defect Unit :=
  if !a.primaryFields.isEmpty && a.exclusiveField.isNone then .error .primaryFieldWithoutExclusive
  else if (a.defaultState.isSome || a.triggerStateReset.isSome || a.nested) && !a.isState then
    .error .stateWithoutPrimaryOrExclusive
  else .ok ()

def sortFields (fs : List SchemaField) : List SchemaField :=
  fs.mergeSort (fun f g => f.number ≤ g.number)

def collateFields (r : Registry) (w : WellKnown) (m : Message) (a : Atom) : Except Defect Draft := do
  let d ← addFields r w m.fields.length 0 (sortFields m.fields) { atom := a }
  checkState d.atom
  return d

end Collation

end AtomLog
