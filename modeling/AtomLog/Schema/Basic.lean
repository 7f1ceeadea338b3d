import AtomLog.Schema.FieldKind
import AtomLog.Schema.OptionKey
import AtomLog.Schema.TypeName
import AtomLog.Sorted.Map
/-!
Schemas: the entries of a container message and the messages they refer to.
-/
namespace AtomLog

structure EnumValue where
  number : Int
  name : String
  deriving DecidableEq, Repr, Inhabited

structure SchemaField where
  name : String
  number : Int
  kind : FieldKind
  repeated : Bool := false
  messageType : Option String := none
  enumValues : List EnumValue := []
  options : List RawOption := []
  deriving DecidableEq, Repr, Inhabited

structure Message where
  name : String
  doc : String := ""
  fields : List SchemaField := []
  deriving DecidableEq, Repr, Inhabited

namespace Entry

/-- The group of the entries that are polled. -/
def pulledGroup : String := "pulled"

/-- The group of the entries that name none. -/
def pushedGroup : String := "pushed"

end Entry

/-- One alternative of the container message. -/
structure Entry where
  name : String
  code : Int
  message : String
  oneof : String := Entry.pushedGroup
  options : List RawOption := []
  deriving DecidableEq, Repr, Inhabited

/-- The message types that have a meaning of their own. -/
structure WellKnown where
  attributionNode : String := "AttributionNode"
  keyValuePair : String := "KeyValuePair"
  deriving DecidableEq, Repr, Inhabited

namespace WellKnown

def isAttributionNode (w : WellKnown) (type : String) : Bool :=
  TypeName.refersTo type w.attributionNode

def isKeyValuePair (w : WellKnown) (type : String) : Bool :=
  TypeName.refersTo type w.keyValuePair

end WellKnown

structure Schema where
  container : String
  entries : List Entry := []
  messages : SortedMap String Message := ∅
  wellKnown : WellKnown := {}
  deriving Inhabited

namespace Schema

def defaultContainer : String := "Atom"

def addMessage (s : Schema) (m : Message) : Schema :=
  { s with messages := s.messages.insert m.name m }

/-- Whether one of the two names is short for the other. -/
def related (key name : String) : Bool :=
  TypeName.refersTo key name || TypeName.refersTo name key

/-- The message of a name: the one defined under it, else the first related one by key. -/
def message? (s : Schema) (name : String) : Option Message :=
  let name := TypeName.undotted name
  match s.messages.get? name with
  | some m => some m
  | none => (s.messages.entries.find? (fun e => related e.1 name)).map Prod.snd

/-- A message without a name takes the key it is defined under. -/
def nameMessages (s : Schema) : Schema :=
  { s with
    messages := s.messages.mapValues (fun k m => if m.name.isEmpty then { m with name := k } else m) }

end Schema

end AtomLog
