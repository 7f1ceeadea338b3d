import AtomLog.Descriptor.Wire
/-!
Declarations: what the files of a descriptor set say, before any name is looked up.
-/
namespace AtomLog.Descriptor

/-- The numbers from `first` to `last`. -/
structure Range where
  first : Int
  last : Int
  deriving DecidableEq, Repr, Inhabited

def Range.contains (r : Range) (n : Int) : Bool := r.first ≤ n && n ≤ r.last

/-- A step to a member of an options message: the name of a field, or a reference to an
extension. -/
structure OptionStep where
  name : String := ""
  isExtension : Bool := false
  deriving DecidableEq, Repr, Inhabited

/-- A value for an option that is known by its name only. -/
structure NamedOption where
  steps : List OptionStep := []
  word : Option String := none
  positive : Option Nat := none
  negative : Option Int := none
  /-- A number with a fraction, as far as it matters: whether it is zero. -/
  fractionIsZero : Option Bool := none
  text : Option Wire.Bytes := none
  /-- The text of a message. -/
  aggregate : Option String := none
  deriving DecidableEq, Repr, Inhabited

/-- The options of a declaration: those on the wire, and those that are known by their names. -/
structure OptionsDecl where
  fields : Wire.Fields := []
  named : List NamedOption := []
  deriving Inhabited

def OptionsDecl.append (a b : OptionsDecl) : OptionsDecl :=
  ⟨a.fields ++ b.fields, a.named ++ b.named⟩

structure FieldDecl where
  name : String := ""
  number : Int := 0
  repeated : Bool := false
  /-- The number of the kind, 1 to 18 in the order of the kinds. A field with the name of a type may
  go without. -/
  type : Option Int := none
  typeName : Option String := none
  /-- The message that an extension belongs to. -/
  extendee : Option String := none
  defaultValue : Option String := none
  oneof : Option Int := none
  jsonName : Option String := none
  /-- Whether presence is tracked by a oneof of its own. -/
  tracked : Bool := false
  options : OptionsDecl := {}
  deriving Inhabited

structure OneofDecl where
  name : String := ""
  options : OptionsDecl := {}
  deriving Inhabited

structure EnumValueDecl where
  name : String := ""
  number : Int := 0
  options : OptionsDecl := {}
  deriving Inhabited

structure EnumDecl where
  name : String := ""
  values : List EnumValueDecl := []
  reserved : List Range := []
  options : OptionsDecl := {}
  deriving Inhabited

/-- The numbers that extensions of a message may have. -/
structure ExtensionRange where
  range : Range := ⟨0, -1⟩
  options : OptionsDecl := {}
  deriving Inhabited

structure MessageDecl where
  name : String := ""
  fields : List FieldDecl := []
  oneofs : List OneofDecl := []
  nested : List MessageDecl := []
  enums : List EnumDecl := []
  extensions : List FieldDecl := []
  extensionRanges : List ExtensionRange := []
  reserved : List Range := []
  options : OptionsDecl := {}
  deriving Inhabited

structure MethodDecl where
  name : String := ""
  input : String := ""
  output : String := ""
  options : OptionsDecl := {}
  deriving Inhabited

structure ServiceDecl where
  name : String := ""
  methods : List MethodDecl := []
  options : OptionsDecl := {}
  deriving Inhabited

/-- A place in a file, and the comment before it. -/
structure Location where
  path : List Int := []
  comment : Option String := none
  deriving Inhabited

structure FileDecl where
  name : String := ""
  package : String := ""
  dependencies : List String := []
  /-- The positions of the dependencies that importers of the file see too. -/
  publicDependencies : List Int := []
  weakDependencies : List Int := []
  messages : List MessageDecl := []
  enums : List EnumDecl := []
  services : List ServiceDecl := []
  extensions : List FieldDecl := []
  locations : List Location := []
  dialect : Option String := none
  options : OptionsDecl := {}
  deriving Inhabited

end AtomLog.Descriptor
