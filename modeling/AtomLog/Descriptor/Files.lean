import AtomLog.Descriptor.Name
import AtomLog.Schema.FieldKind
/-!
The files of a descriptor set: what each of them can see, and what its references mean.
-/
namespace AtomLog.Descriptor

/-- All files of a set, with their names. -/
structure Files where
  files : List FileDecl
  names : Names

namespace Files

def find? (s : Files) (name : String) : Option FileDecl := s.files.find? (·.name == name)

def publicOf (f : FileDecl) : List String :=
  f.publicDependencies.filterMap (fun n => if n < 0 then none else f.dependencies[n.toNat]?)

/-- Add the files that a file makes visible to its importers. One that was visible before leads on
to those that it makes visible. -/
def addPublic (s : Files) : Nat → List String → String → List String
  | 0, seen, _ => seen
  | fuel + 1, seen, name =>
    (((s.find? name).map publicOf).getD []).foldl
      (fun seen n => if seen.contains n then s.addPublic fuel seen n else seen ++ [n]) seen

/-- Add a file that is imported, and what it makes visible. -/
def addImport (s : Files) (seen : List String) (name : String) : List String :=
  s.addPublic s.files.length (if seen.contains name then seen else seen ++ [name]) name

/-- The files whose names a file can see. -/
def visible (s : Files) (f : FileDecl) : List String := f.dependencies.foldl s.addImport [f.name]

def resolve? (s : Files) (f : FileDecl) (scope : String) (kinds : List Kind) (reference : String) :
    Option String :=
  s.names.resolve? (s.visible f) scope kinds reference

def placed (s : Files) : List Placed := s.files.flatMap FileDecl.placed

def placedEnums (s : Files) : List PlacedEnum := s.files.flatMap FileDecl.placedEnums

def message? (s : Files) (fullName : String) : Option MessageDecl :=
  (s.placed.find? (·.fullName == fullName)).map Placed.decl

def enumValues (s : Files) (fullName : String) : List EnumValueDecl :=
  ((s.placedEnums.find? (·.fullName == fullName)).map (·.decl.values)).getD []

end Files

/-- Whether a file is written in the newer of the two dialects. -/
def FileDecl.isNew (f : FileDecl) : Bool := f.dialect == some "proto3"

/-- The kind that a field gives for itself. -/
def FieldDecl.ownKind? (d : FieldDecl) : Option FieldKind :=
  d.type.bind (fun n => if 1 ≤ n then FieldKind.all[(n - 1).toNat]? else none)

/-- The type of a field, once its name is looked up. -/
structure ResolvedType where
  kind : FieldKind
  /-- The full name, if it is a message or an enum. -/
  name : Option String
  deriving DecidableEq, Repr

namespace ResolvedType

def isMessage (t : ResolvedType) : Bool := t.kind == .message || t.kind == .group

end ResolvedType

namespace Files

/-- The type that a field names. What has the name decides whether it is a message or an enum,
whatever kind the field gives, but for groups. -/
def namedType? (s : Files) (f : FileDecl) (scope : String) (d : FieldDecl) (reference : String) :
    Option ResolvedType := do
  let name ← s.resolve? f scope [.message, .enum] reference
  let definition ← s.names.get? name
  let kind :=
    if definition.kind = .enum then .enum
    else if d.ownKind? = some .group then .group
    else .message
  return ⟨kind, some name⟩

/-- The type of a field with a full name, if it is found. With neither a kind nor the name of a
type, it is a double. -/
def typeOf? (s : Files) (f : FileDecl) (fullName : String) (d : FieldDecl) :
    Option ResolvedType :=
  match d.typeName, d.ownKind? with
  | some reference, _ => s.namedType? f fullName d reference
  | none, some .message | none, some .group | none, some .enum => none
  | none, some kind => some ⟨kind, none⟩
  | none, none => some ⟨.double, none⟩

/-- The type of a field of files that fit together. -/
def typeOf (s : Files) (f : FileDecl) (fullName : String) (d : FieldDecl) : ResolvedType :=
  (s.typeOf? f fullName d).getD ⟨.double, none⟩

end Files

end AtomLog.Descriptor
