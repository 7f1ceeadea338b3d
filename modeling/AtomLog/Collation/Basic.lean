import AtomLog.Atom.Catalog
import AtomLog.Collation.Fields
/-!
Collating a schema: every entry becomes an atom or an error.

A defect costs only its own atom, so that one run reports all of them.
-/
namespace AtomLog

structure Collation where
  catalog : Catalog
  /-- The fields of an attribution node, shared by every chain. -/
  attribution : Atom
  errors : List CollationError
  deriving Inhabited

namespace Collation

/-- A pushed atom whose first field is an int32 uid and whose second is a string tag. -/
def isNonChained (d : Draft) : Bool :=
  d.atom.kind == .pushed && d.atom.uidField == some 1 && d.tagField == some 2 &&
    (d.atom.field? 1).map AtomField.type == some .int32 &&
    (d.atom.field? 2).map AtomField.type == some .string

/-- What an entry and its message say of an atom, without the fields. -/
def startAtom (r : Registry) (e : Entry) (m : Message) : Atom :=
  let options := AtomOptions.read r e.options
  { code := e.code
    name := e.name
    message := m.name
    doc := m.doc
    kind := if e.oneof == Entry.pulledGroup then .pulled else .pushed
    modules := options.modules
    annotations :=
      if options.annotations.isEmpty then ∅
      else (∅ : FieldAnnotations).insert atomNumber options.annotations
    truncateTimestamp := AnnotationSet.flag options.annotations .truncateTimestamp
    whitelisted := options.allowFromAnyUid }

def collateEntry (r : Registry) (s : Schema) (e : Entry) : Except Defect Atom :=
  match s.message? e.message with
  | none => .error (.unknownMessage e.message)
  | some m => do
    let d ← collateFields r s.wellKnown m (startAtom r e m)
    return { d.atom with nonChained := isNonChained d }

/-- The attribution node of a schema that defines none. -/
def builtinAttribution : Atom :=
  { code := 0
    name := "AttributionNode"
    message := "AttributionNode"
    fields := [⟨"uid", .int32, ∅⟩, ⟨"tag", .string, ∅⟩]
    uidField := some 1
    annotations := (∅ : FieldAnnotations).insert 1 ((∅ : AnnotationSet).insert ⟨.isUid, .bool true⟩) }

/-- A node has two fields or more, the first an int32 and the last a string. -/
def isAttribution (a : Atom) : Bool :=
  2 ≤ a.fields.length && a.fields.head?.map AtomField.type == some .int32 &&
    a.fields.getLast?.map AtomField.type == some .string

/-- The attribution node of a message. -/
def attributionOf (r : Registry) (w : WellKnown) (m : Message) : Except Defect Atom := do
  let d ← collateFields r w m { code := 0, name := m.name, message := m.name }
  if isAttribution d.atom then .ok d.atom else .error .invalidAttributionNode

def collateAttribution (r : Registry) (s : Schema) : Except CollationError Atom :=
  match s.message? s.wellKnown.attributionNode with
  | none => .ok builtinAttribution
  | some m => (attributionOf r s.wellKnown m).mapError (fun d => ⟨m.name, 0, d⟩)

/-- The outcomes of the entries in order. A code belongs to the first entry that uses it, be that
entry sound or not; `seen` holds the codes used before with the names of their entries. -/
def outcomes (r : Registry) (s : Schema) :
    SortedMap Int String → List Entry → List (Except CollationError Atom)
  | _, [] => []
  | seen, e :: es =>
    match seen.get? e.code with
    | some existing =>
      .error ⟨e.name, e.code, .duplicateCode e.code existing⟩ :: outcomes r s seen es
    | none =>
      (collateEntry r s e).mapError (fun d => ⟨e.name, e.code, d⟩) ::
        outcomes r s (seen.insert e.code e.name) es

def accepted (os : List (Except CollationError Atom)) : List Atom :=
  os.filterMap Except.toOption

def rejected (os : List (Except CollationError Atom)) : List CollationError :=
  os.filterMap (fun | .error e => some e | .ok _ => none)

def collate (r : Registry) (s : Schema) : Collation :=
  let os := outcomes r s ∅ s.entries
  let attribution := collateAttribution r s
  { catalog := .ofAtoms (accepted os)
    attribution := attribution.toOption.getD builtinAttribution
    errors := rejected (os ++ [attribution]) }

end Collation

end AtomLog
