import AtomLog.Descriptor.Declaration
import AtomLog.Sorted.Map
import AtomLog.Text.Split
/-!
The full names that the files of a descriptor set define, and what references to them mean.
-/
namespace AtomLog.Descriptor

/-- A name inside a scope. The empty scope is the one of files without a package. -/
def qualify (scope name : String) : String :=
  if scope.isEmpty then name else scope ++ "." ++ name

inductive Kind
  | package
  | message
  | enum
  | service
  | extension
  | other
  deriving DecidableEq, Repr

/-- Whether names of this kind may have others inside. -/
def Kind.isScope : Kind → Bool
  | .package | .message | .enum | .service => true
  | .extension | .other => false

/-- A message with its full name, and its path in the file. -/
structure Placed where
  fullName : String
  path : List Int
  decl : MessageDecl
  deriving Inhabited

mutual

/-- A message and all messages inside it. -/
def MessageDecl.placed (scope : String) (path : List Int) : MessageDecl → List Placed
  | .mk name fields oneofs nested enums extensions ranges reserved options =>
    let fullName := qualify scope name
    ⟨fullName, path, .mk name fields oneofs nested enums extensions ranges reserved options⟩ ::
      placedAll fullName (path ++ [3]) 0 nested

def placedAll (scope : String) (path : List Int) (index : Int) : List MessageDecl → List Placed
  | [] => []
  | m :: ms => m.placed scope (path ++ [index]) ++ placedAll scope path (index + 1) ms

end

/-- An enum with its full name. -/
structure PlacedEnum where
  scope : String
  decl : EnumDecl

def PlacedEnum.fullName (e : PlacedEnum) : String := qualify e.scope e.decl.name

/-- An extension with the scope that it is declared in. -/
structure PlacedExtension where
  scope : String
  decl : FieldDecl

def PlacedExtension.fullName (e : PlacedExtension) : String := qualify e.scope e.decl.name

mutual

/-- The extensions in a message, those of the messages inside it first. -/
def MessageDecl.placedExtensions (scope : String) : MessageDecl → List PlacedExtension
  | .mk name _ _ nested _ extensions _ _ _ =>
    let fullName := qualify scope name
    placedExtensionsAll fullName nested ++ extensions.map (⟨fullName, ·⟩)

def placedExtensionsAll (scope : String) : List MessageDecl → List PlacedExtension
  | [] => []
  | m :: ms => m.placedExtensions scope ++ placedExtensionsAll scope ms

end

namespace FileDecl

def placed (f : FileDecl) : List Placed := placedAll f.package [4] 0 f.messages

def placedEnums (f : FileDecl) : List PlacedEnum :=
  f.enums.map (⟨f.package, ·⟩) ++
    f.placed.flatMap (fun m => m.decl.enums.map (⟨m.fullName, ·⟩))

/-- All extensions, those in messages first. -/
def placedExtensions (f : FileDecl) : List PlacedExtension :=
  placedExtensionsAll f.package f.messages ++ f.extensions.map (⟨f.package, ·⟩)

/-- A package and the packages that it is in. -/
def packages (f : FileDecl) : List String :=
  let parts := Text.split '.' f.package
  if f.package.isEmpty then []
  else (List.range parts.length).map (fun n => ".".intercalate (parts.take (n + 1)))

end FileDecl

/-- The names of an enum and of its values, which stand beside it and not inside. -/
def PlacedEnum.names (e : PlacedEnum) : List (String × Kind) :=
  (e.fullName, .enum) :: e.decl.values.map (fun v => (qualify e.scope v.name, .other))

def Placed.names (m : Placed) : List (String × Kind) :=
  (m.fullName, .message) ::
    (m.decl.fields.map FieldDecl.name ++ m.decl.oneofs.map OneofDecl.name).map
      (fun name => (qualify m.fullName name, .other))

def ServiceDecl.names (scope : String) (s : ServiceDecl) : List (String × Kind) :=
  let fullName := qualify scope s.name
  (fullName, .service) :: s.methods.map (fun m => (qualify fullName m.name, .other))

/-- All names that a file defines. -/
def FileDecl.names (f : FileDecl) : List (String × Kind) :=
  f.packages.map (·, .package) ++ f.placed.flatMap Placed.names ++
    f.placedEnums.flatMap PlacedEnum.names ++
    f.services.flatMap (ServiceDecl.names f.package) ++
    f.placedExtensions.map (fun e => (e.fullName, .extension))

/-- What a name stands for, and the file that defines it. -/
structure Definition where
  kind : Kind
  file : String
  deriving DecidableEq, Repr

abbrev Names := SortedMap String Definition

namespace Names

/-- Define a name. Only packages may be defined twice. -/
def add (ns : Names) (name : String) (d : Definition) : Option Names :=
  match ns.get? name with
  | none => some (ns.insert name d)
  | some old => if old.kind = .package ∧ d.kind = .package then some ns else none

/-- The names that files define, if no two definitions clash. -/
def ofFiles? (files : List FileDecl) : Option Names :=
  files.foldlM (fun ns f => f.names.foldlM (fun ns (name, kind) => ns.add name ⟨kind, f.name⟩) ns) ∅

/-- A scope and those around it, the innermost first. -/
def scopes (scope : String) : List String :=
  let parts := Text.split '.' scope
  if scope.isEmpty then [""]
  else (List.range (parts.length + 1)).map
    (fun n => ".".intercalate (parts.take (parts.length - n)))

/-- Whether a full name is of one of the kinds, in a file that can be seen. -/
def isKind (ns : Names) (visible : List String) (kinds : List Kind) (name : String) : Bool :=
  match ns.get? name with
  | some d => kinds.contains d.kind && visible.contains d.file
  | none => false

/-- The full name that a reference means in a scope. A reference with a dot in front is a full name,
and one without dots is looked up in every scope. Any other belongs to the innermost scope where its
first part may have names inside, whether it can be seen or not. -/
def candidate? (ns : Names) (isMeant : String → Bool) (scope reference : String) :
    Option String :=
  match reference.toList with
  | '.' :: name => some (String.ofList name)
  | cs =>
    if cs.contains '.' then
      let first := (Text.split '.' reference).headD ""
      let isScope (s : String) : Bool := (ns.get? (qualify s first)).any (·.kind.isScope)
      ((scopes scope).find? isScope).map (qualify · reference)
    else ((scopes scope).map (qualify · reference)).find? isMeant

/-- The full name of one of some kinds that a reference means, if it can be seen. -/
def resolve? (ns : Names) (visible : List String) (scope : String) (kinds : List Kind)
    (reference : String) : Option String :=
  let isMeant := ns.isKind visible kinds
  (ns.candidate? isMeant scope reference).filter isMeant

end Names

end AtomLog.Descriptor
