import AtomLog.Descriptor.Options
import AtomLog.Descriptor.Reader
/-!
What must hold in a descriptor set beside its names.
-/
namespace AtomLog.Descriptor

namespace FieldDecl

/-- The name of a field in JSON documents, if it gives none: without underscores, and with a capital
after each. -/
def plainJsonName (name : String) : String := String.ofList (go false name.toList)
where
  go : Bool → List Char → List Char
    | _, [] => []
    | capital, c :: cs =>
      if c == '_' then go true cs else (if capital then c.toUpper else c) :: go false cs

def json (d : FieldDecl) : String := d.jsonName.getD (plainJsonName d.name)

end FieldDecl

def EnumDecl.allowsAliases (e : EnumDecl) : Bool :=
  let onWire := (e.options.fields.filter (fun (n, _) => n == 2)).getLast?
  let byName (o : NamedOption) : Bool :=
    o.steps == [⟨"allow_alias", false⟩] && o.word == some "true"
  (onWire.bind (fun (_, v) => Reader.bool? v)).getD false || e.options.named.any byName

namespace Files

/-- Whether the type of a field is found and its default value is one of that type. -/
def checkType (s : Files) (f : FileDecl) (fullName : String) (d : FieldDecl) : Bool :=
  match s.typeOf? f fullName d with
  | some t =>
    let values := (t.name.map s.enumValues).getD []
    d.defaultValue.all (fun text => (Default.value? t.kind values text).isSome)
  | none => false

/-- A field number: one in range and not set aside for the format itself. -/
def isFieldNumber (n : Int) : Bool :=
  1 ≤ n && n ≤ 536870911 && !(19000 ≤ n && n ≤ 19999)

/-- Whether a message has room for the number of a field: extensions have theirs in the ranges for
them, and all other fields outside of these. -/
def checkNumber (m : MessageDecl) (d : FieldDecl) : Bool :=
  isFieldNumber d.number && !m.reserved.any (·.contains d.number) &&
    m.extensionRanges.any (·.range.contains d.number) == d.extendee.isSome

def checkField (s : Files) (f : FileDecl) (m : Placed) (d : FieldDecl) : Bool :=
  checkNumber m.decl d && s.checkType f (qualify m.fullName d.name) d &&
    d.oneof.all (fun (n : Int) => 0 ≤ n && n < m.decl.oneofs.length)

def checkExtension (s : Files) (f : FileDecl) (e : PlacedExtension) : Bool :=
  let extendee := e.decl.extendee.bind (s.resolve? f e.fullName [.message])
  match extendee.bind s.message? with
  | some m => checkNumber m e.decl && s.checkType f e.fullName e.decl
  | none => false

def allDistinct {α : Type} [BEq α] (xs : List α) : Bool :=
  match xs with
  | [] => true
  | x :: xs => !xs.contains x && allDistinct xs

/-- A field name without what its other spellings may leave out. -/
def plainName (name : String) : String :=
  String.ofList ((name.toList.filter (· != '_')).map Char.toLower)

def checkMessage (s : Files) (f : FileDecl) (m : Placed) : Bool :=
  m.decl.fields.all (s.checkField f m) && allDistinct (m.decl.fields.map FieldDecl.number) &&
    allDistinct (m.decl.fields.map FieldDecl.json) &&
    (!f.isNew || allDistinct (m.decl.fields.map (fun d => plainName d.name)))

def checkEnum (f : FileDecl) (e : EnumDecl) : Bool :=
  let numbers := e.values.map EnumValueDecl.number
  !numbers.isEmpty && (!f.isNew || numbers.head? == some 0) &&
    (e.allowsAliases || allDistinct numbers) &&
    !numbers.any (fun n => e.reserved.any (·.contains n))

def checkService (s : Files) (f : FileDecl) (d : ServiceDecl) : Bool :=
  d.methods.all (fun m =>
    let scope := qualify (qualify f.package d.name) m.name
    [m.input, m.output].all (fun type => (s.resolve? f scope [.message] type).isSome))

def checkFile (s : Files) (ts : Types) (f : FileDecl) : Bool :=
  let isPosition (n : Int) : Bool := 0 ≤ n && n < f.dependencies.length
  f.dialect.all (["proto2", "proto3"].contains ·) &&
    f.dependencies.all (fun name => (s.find? name).isSome) &&
    (f.publicDependencies ++ f.weakDependencies).all isPosition &&
    f.placed.all (s.checkMessage f) && f.placedEnums.all (fun e => checkEnum f e.decl) &&
    f.placedExtensions.all (s.checkExtension f) && f.services.all (s.checkService f) &&
    f.optionSites.all (fun site => (s.optionsAt? ts f site).isSome)

/-- The files of a set, if they fit together. -/
def ofDecls? (files : List FileDecl) : Option Files := do
  let s : Files := ⟨files, ← Names.ofFiles? files⟩
  let ts := s.types
  if allDistinct (files.map FileDecl.name) && files.all (s.checkFile ts) then some s else none

end Files

end AtomLog.Descriptor
