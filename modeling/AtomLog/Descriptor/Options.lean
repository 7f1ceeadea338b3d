import AtomLog.Descriptor.Merge
import AtomLog.Descriptor.Types
/-!
The options of declarations.

Options come as values on the wire, and as values that are given to a member by its name. The latter
are set after the former, and no member but a list is set twice.
-/
namespace AtomLog.Descriptor

/-- The options of a declaration with its full name, and the message that they make up. -/
structure OptionSite where
  scope : String
  message : String
  options : OptionsDecl

namespace FieldDecl

def optionSite (scope : String) (d : FieldDecl) : OptionSite :=
  ⟨qualify scope d.name, Standard.name "FieldOptions", d.options⟩

end FieldDecl

namespace Placed

/-- The options of a message, its fields, its oneofs and its ranges of extensions. -/
def optionSites (m : Placed) : List OptionSite :=
  [⟨m.fullName, Standard.name "MessageOptions", m.decl.options⟩] ++
    m.decl.fields.map (FieldDecl.optionSite m.fullName) ++
    m.decl.oneofs.map (fun o =>
      ⟨qualify m.fullName o.name, Standard.name "OneofOptions", o.options⟩) ++
    m.decl.extensionRanges.map (fun r =>
      ⟨m.fullName, Standard.name "ExtensionRangeOptions", r.options⟩)

end Placed

def PlacedEnum.optionSites (e : PlacedEnum) : List OptionSite :=
  ⟨e.fullName, Standard.name "EnumOptions", e.decl.options⟩ ::
    e.decl.values.map (fun v =>
      ⟨qualify e.scope v.name, Standard.name "EnumValueOptions", v.options⟩)

def ServiceDecl.optionSites (scope : String) (d : ServiceDecl) : List OptionSite :=
  let fullName := qualify scope d.name
  ⟨fullName, Standard.name "ServiceOptions", d.options⟩ ::
    d.methods.map (fun m =>
      ⟨qualify fullName m.name, Standard.name "MethodOptions", m.options⟩)

/-- The options of a file and of everything in it. -/
def FileDecl.optionSites (f : FileDecl) : List OptionSite :=
  [⟨f.package, Standard.name "FileOptions", f.options⟩] ++
    f.placed.flatMap Placed.optionSites ++
    f.placedEnums.flatMap PlacedEnum.optionSites ++
    f.services.flatMap (ServiceDecl.optionSites f.package) ++
    f.placedExtensions.map (fun e => e.decl.optionSite e.scope)

namespace NamedOption

def int? (o : NamedOption) : Option Int := (o.positive.map Int.ofNat).or o.negative

def bool? (o : NamedOption) : Option Content :=
  match o.word with
  | some "true" => some (.bool true)
  | some "false" => some (.bool false)
  | _ => none

/-- Whether a number is zero, where it may be whole or have a fraction, or be called by a word. -/
def fraction? (o : NamedOption) : Option Content :=
  let whole := o.int?.map (· == 0)
  let word := o.word.bind (fun w => if w == "inf" || w == "nan" then some false else none)
  ((o.fractionIsZero.or whole).or word).map .fraction

def enum? (o : NamedOption) (values : List EnumValueDecl) : Option Content := do
  let w ← o.word
  return .enumNumber (.ofInt (← values.find? (·.name == w)).number)

/-- The value for a member. The text of a message is not read. -/
def content? (o : NamedOption) (ts : Types) (m : Member) : Option Content :=
  match m.kind with
  | .int32 | .sint32 | .sfixed32 | .int64 | .sint64 | .sfixed64 | .uint32 | .fixed32 | .uint64
  | .fixed64 => o.int?.bind (Content.number? m.kind)
  | .float | .double => o.fraction?
  | .bool => o.bool?
  | .string => o.text.bind (fun bs => (Text.ofBytes? bs).map .str)
  | .bytes => o.text.map .bytes
  | .enum => o.enum? (ts.enumOf m)
  | .message | .group => o.aggregate.map (fun _ => .message [])

end NamedOption

namespace Types

/-- The member that a step leads to; `extension?` looks up an extension. -/
def step? (ts : Types) (extension? : String → Option String) (message : String) (s : OptionStep) :
    Option Member :=
  if s.isExtension then do
    let (extendee, m) ← ts.extensions.get? (← extension? s.name)
    if extendee == message then some m else none
  else do (← ts.messages.get? message).fields.find? (·.name == s.name)

/-- Set the member that steps lead to. Without a step nothing is set. -/
def assign (ts : Types) (extension? : String → Option String) (o : NamedOption) :
    List OptionStep → String → Contents → Option Contents
  | [], _, cs => some cs
  | [s], message, cs => do
    let m ← ts.step? extension? message s
    let old := cs.get? m.number
    let c ← o.content? ts m
    let t := (ts.messages.get? message).getD {}
    if m.repeated then return cs.put t m (.list ((old.map Content.items).getD [] ++ [c]))
    else if old.any m.isSet then none
    else return cs.put t m c
  | s :: steps, message, cs => do
    let m ← ts.step? extension? message s
    let old := ((cs.get? m.number).map Content.members).getD []
    let t := (ts.messages.get? message).getD {}
    if m.repeated || !m.isMessage then none
    else return cs.put t m (.message (← assign ts extension? o steps (← m.type) old))

end Types

namespace Files

/-- The contents of the options at a site in a file. -/
def optionsAt? (s : Files) (ts : Types) (f : FileDecl) (site : OptionSite) : Option Contents := do
  let t ← ts.messages.get? site.message
  let cs ← site.options.fields.foldlM (merge ts Wire.maxDepth t) []
  let extension? := s.resolve? f site.scope [.extension]
  site.options.named.foldlM (fun cs o => ts.assign extension? o o.steps site.message cs) cs

/-- The extensions that are set in the options of a field, and the members that are set in those
that are messages. -/
def fieldOptions (s : Files) (ts : Types) (f : FileDecl) (scope : String) (d : FieldDecl) :
    Contents :=
  let site := d.optionSite scope
  let t := (ts.messages.get? site.message).getD {}
  (MessageType.setMembers t.extension? ((s.optionsAt? ts f site).getD [])).map (fun (n, c) =>
    match c, t.extension? n with
    | .message ms, some m => (n, .message (MessageType.setMembers (ts.messageOf m).field? ms))
    | c, _ => (n, c))

end Files

end AtomLog.Descriptor
