import AtomLog.Descriptor.Content
import AtomLog.Descriptor.Declaration
import AtomLog.Schema.FieldKind
import AtomLog.Sorted.Map
/-!
The types of messages whose contents are read.
-/
namespace AtomLog.Descriptor

/-- A member of a message. -/
structure Member where
  name : String
  number : Nat
  kind : FieldKind
  repeated : Bool := false
  /-- The full name of its type, if that is a message or an enum. -/
  type : Option String := none
  oneof : Option Nat := none
  /-- What counts as not set, unless the presence of the member is tracked. -/
  absent : Option Content := none
  deriving Inhabited

namespace Member

def isMessage (m : Member) : Bool := m.kind == .message || m.kind == .group

/-- Whether a content counts as set. -/
def isSet (m : Member) (c : Content) : Bool :=
  if m.repeated then !c.items.isEmpty else !m.absent.any c.isSame

end Member

structure MessageType where
  fields : List Member := []
  /-- In the order of their declarations. Of two with one number the first counts. -/
  extensions : List Member := []
  deriving Inhabited

namespace MessageType

def field? (t : MessageType) (number : Nat) : Option Member :=
  t.fields.find? (·.number == number)

def extension? (t : MessageType) (number : Nat) : Option Member :=
  if (t.field? number).isSome then none else t.extensions.find? (·.number == number)

def member? (t : MessageType) (number : Nat) : Option Member :=
  (t.field? number).or (t.extension? number)

/-- The members among some that are set and that `find?` knows. -/
def setMembers (find? : Nat → Option Member) (cs : List (Nat × Content)) : List (Nat × Content) :=
  cs.filter (fun (n, c) => (find? n).any (·.isSet c))

end MessageType

/-- All message types and enums by their full names, and the extensions, each with the message that
it extends. -/
structure Types where
  messages : SortedMap String MessageType
  enums : SortedMap String (List EnumValueDecl)
  extensions : SortedMap String (String × Member)

namespace Types

/-- The type of a member that is a message. -/
def messageOf (ts : Types) (m : Member) : MessageType :=
  (m.type.bind ts.messages.get?).getD {}

/-- The values of the enum of a member. -/
def enumOf (ts : Types) (m : Member) : List EnumValueDecl := (m.type.bind ts.enums.get?).getD []

end Types

end AtomLog.Descriptor
