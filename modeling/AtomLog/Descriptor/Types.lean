import AtomLog.Descriptor.Default
import AtomLog.Descriptor.Files
import AtomLog.Descriptor.MessageType
import AtomLog.Descriptor.Standard
/-!
The message types that the files of a descriptor set declare.
-/
namespace AtomLog.Descriptor.Files

/-- Whether a field counts as not set where it has its default value: in the newer dialect, unless
its presence is tracked. -/
def isImplicit (f : FileDecl) (d : FieldDecl) : Bool := f.isNew && d.oneof.isNone && !d.tracked

/-- The default value of a field. -/
def defaultOf (s : Files) (t : ResolvedType) (d : FieldDecl) : Content :=
  let values := (t.name.map s.enumValues).getD []
  (d.defaultValue.bind (Default.value? t.kind values)).getD (Default.plain t.kind values)

/-- A field or an extension with a full name as a member, on its own. -/
def memberOf (s : Files) (f : FileDecl) (fullName : String) (d : FieldDecl) : Member :=
  let t := s.typeOf f fullName d
  { name := d.name
    number := d.number.toNat
    kind := t.kind
    repeated := d.repeated
    type := t.name }

/-- A field of a message as its member. -/
def fieldMember (s : Files) (f : FileDecl) (message : String) (d : FieldDecl) : Member :=
  let fullName := qualify message d.name
  let t := s.typeOf f fullName d
  { s.memberOf f fullName d with
    oneof := d.oneof.map Int.toNat
    absent := if isImplicit f d && !t.isMessage then some (s.defaultOf t d) else none }

/-- The extensions of a file, each with the message that it extends. -/
def extensionsOf (s : Files) (f : FileDecl) : List (String × String × Member) :=
  f.placedExtensions.filterMap (fun e => do
    let extendee ← s.resolve? f e.fullName [.message] (← e.decl.extendee)
    return (e.fullName, extendee, s.memberOf f e.fullName e.decl))

/-- All types, and the standard options messages where the files declare none of that name. -/
def types (s : Files) : Types :=
  let extensions := s.files.flatMap s.extensionsOf
  let typeOfMessage (f : FileDecl) (m : Placed) : MessageType :=
    { fields := m.decl.fields.map (s.fieldMember f m.fullName)
      extensions := (extensions.filter (·.2.1 == m.fullName)).map (·.2.2) }
  { messages := .ofList (Standard.messages ++
      s.files.flatMap (fun f => f.placed.map (fun m => (m.fullName, typeOfMessage f m))))
    enums := .ofList (Standard.enums ++
      s.placedEnums.map (fun e => (e.fullName, e.decl.values)))
    extensions := .ofList extensions }

end AtomLog.Descriptor.Files
