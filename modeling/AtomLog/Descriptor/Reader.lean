import AtomLog.Bits
import AtomLog.Descriptor.Declaration
import AtomLog.Text.Bytes
/-!
Reading descriptor sets from bytes.

A member with a number that is not known is skipped. One that is known must have the form of its
type, and of a member that may stand once the last one counts.
-/
namespace AtomLog.Descriptor.Reader

open Wire (Value Fields)

/-- The number that the low 32 bits give, with sign. -/
def int32 (n : Nat) : Int := Bits.signed 32 n

def int? : Value → Option Int
  | .varint n => some (int32 n)
  | _ => none

def bool? : Value → Option Bool
  | .varint n => some (n ≠ 0)
  | _ => none

def varint? : Value → Option Nat
  | .varint n => some n
  | _ => none

def bytes? : Value → Option Wire.Bytes
  | .bytes bs => some bs
  | _ => none

def string? (v : Value) : Option String := do Text.ofBytes? (← bytes? v)

def packedInts : Nat → Wire.Bytes → Option (List Int)
  | 0, _ => none
  | _ + 1, [] => some []
  | fuel + 1, bs => do
    let (n, bs) ← Wire.varint bs
    return int32 n :: (← packedInts fuel bs)

/-- Numbers one by one or as one string of bytes. -/
def ints? : Value → Option (List Int)
  | .bytes bs => packedInts (bs.length + 1) bs
  | v => (int? v).map ([·])

/-- The members of a message at a place with this many levels left. -/
def members? : Nat → Value → Option Fields
  | _ + 1, .bytes bs => Wire.fields bs
  | _, _ => none

/-- Leave out a value that is not known. -/
def skipped {α : Type} (depth : Nat) (v : Value) (a : α) : Option α :=
  if v.canSkip depth then some a else none

/-- What the members of a message add up to, where each one has its number. -/
def collect {α : Type} (start : α) (add : α → Nat → Value → Option α) (fs : Fields) : Option α :=
  fs.foldlM (fun a (n, v) => add a n v) start

/-- The form of a member of an options message. -/
inductive OptionForm
  | number
  | string
  deriving DecidableEq

def OptionForm.accepts : OptionForm → Value → Bool
  | .number, .varint _ => true
  | .string, v => (string? v).isSome
  | _, _ => false


/-- Read a member that is a message. -/
def sub {α : Type} (depth : Nat) (read : Nat → Fields → Option α) (v : Value) : Option α := do
  read (depth - 1) (← members? depth v)

def optionStep (depth : Nat) (fs : Fields) : Option OptionStep :=
  collect {} (fun s n v =>
    match n with
    | 1 => return { s with name := ← string? v }
    | 2 => return { s with isExtension := ← bool? v }
    | _ => skipped depth v s) fs

/-- Whether a number of double precision is zero, with either sign. -/
def isZero? : Value → Option Bool
  | .fixed64 n => some (n % Bits.values 63 = 0)
  | _ => none

def namedOption (depth : Nat) (fs : Fields) : Option NamedOption :=
  collect {} (fun o n v =>
    match n with
    | 2 => return { o with steps := o.steps ++ [← sub depth optionStep v] }
    | 3 => return { o with word := some (← string? v) }
    | 4 => return { o with positive := some (← varint? v) }
    | 5 => return { o with negative := some (Bits.signed 64 (← varint? v)) }
    | 6 => return { o with fractionIsZero := some (← isZero? v) }
    | 7 => return { o with text := some (← bytes? v) }
    | 8 => return { o with aggregate := some (← string? v) }
    | _ => skipped depth v o) fs

/-- The number of the options that are known by their names only. -/
def namedOptionNumber : Nat := 999

/-- Read options. The members of some numbers have a meaning of their own. -/
def options (forms : List (Nat × OptionForm)) (depth : Nat) (fs : Fields) : Option OptionsDecl :=
  collect ⟨fs, []⟩ (fun o n v =>
    if n = namedOptionNumber then
      return { o with named := o.named ++ [← sub depth namedOption v] }
    else
      match forms.lookup n with
      | some form => if form.accepts v then some o else none
      | none => skipped depth v o) fs

def optionsOf (depth : Nat) (forms : List (Nat × OptionForm)) (v : Value) : Option OptionsDecl :=
  sub depth (options forms) v

def fieldOptions : List (Nat × OptionForm) :=
  [(1, .number), (2, .number), (3, .number), (5, .number), (6, .number), (10, .number)]

def messageOptions : List (Nat × OptionForm) :=
  [(1, .number), (2, .number), (3, .number), (7, .number)]

def enumOptions : List (Nat × OptionForm) := [(2, .number), (3, .number)]

def enumValueOptions : List (Nat × OptionForm) := [(1, .number)]

def serviceOptions : List (Nat × OptionForm) := [(33, .number)]

def methodOptions : List (Nat × OptionForm) := [(33, .number), (34, .number)]

def fileOptions : List (Nat × OptionForm) :=
  [(1, .string), (8, .string), (9, .number), (10, .number), (11, .string), (16, .number),
    (17, .number), (18, .number), (20, .number), (23, .number), (27, .number), (31, .number),
    (36, .string), (37, .string), (39, .string), (40, .string), (41, .string), (42, .number),
    (44, .string), (45, .string)]

/-- The label of a repeated field. -/
def repeatedLabel : Int := 3

def field (depth : Nat) (fs : Fields) : Option FieldDecl :=
  collect {} (fun f n v =>
    match n with
    | 1 => return { f with name := ← string? v }
    | 2 => return { f with extendee := some (← string? v) }
    | 3 => return { f with number := ← int? v }
    | 4 => return { f with repeated := (← int? v) == repeatedLabel }
    | 5 => return { f with type := some (← int? v) }
    | 6 => return { f with typeName := some (← string? v) }
    | 7 => return { f with defaultValue := some (← string? v) }
    | 8 => return { f with options := f.options.append (← optionsOf depth fieldOptions v) }
    | 9 => return { f with oneof := some (← int? v) }
    | 10 => return { f with jsonName := some (← string? v) }
    | 17 => return { f with tracked := ← bool? v }
    | _ => skipped depth v f) fs

/-- A range whose end is the first number that is not in it. -/
def extensionRange (depth : Nat) (fs : Fields) : Option ExtensionRange :=
  collect {} (fun r n v =>
    match n with
    | 1 => return { r with range.first := ← int? v }
    | 2 => return { r with range.last := (← int? v) - 1 }
    | 3 => return { r with options := r.options.append (← optionsOf depth [] v) }
    | _ => skipped depth v r) fs

/-- A range whose end is its last number. -/
def closedRange (depth : Nat) (fs : Fields) : Option Range :=
  collect ⟨0, 0⟩ (fun r n v =>
    match n with
    | 1 => return { r with first := ← int? v }
    | 2 => return { r with last := ← int? v }
    | _ => skipped depth v r) fs

/-- A range whose end is the first number that is not in it, and that has no options. -/
def reservedRange (depth : Nat) (fs : Fields) : Option Range :=
  (closedRange depth fs).map (fun r => ⟨r.first, r.last - 1⟩)

def enumValue (depth : Nat) (fs : Fields) : Option EnumValueDecl :=
  collect {} (fun e n v =>
    match n with
    | 1 => return { e with name := ← string? v }
    | 2 => return { e with number := ← int? v }
    | 3 => return { e with options := e.options.append (← optionsOf depth enumValueOptions v) }
    | _ => skipped depth v e) fs

def enum (depth : Nat) (fs : Fields) : Option EnumDecl :=
  collect {} (fun e n v =>
    match n with
    | 1 => return { e with name := ← string? v }
    | 2 => return { e with values := e.values ++ [← sub depth enumValue v] }
    | 3 => return { e with options := e.options.append (← optionsOf depth enumOptions v) }
    | 4 => return { e with reserved := e.reserved ++ [← sub depth closedRange v] }
    | 5 => (string? v).map (fun _ => e)
    | _ => skipped depth v e) fs

def oneof (depth : Nat) (fs : Fields) : Option OneofDecl :=
  collect {} (fun o n v =>
    match n with
    | 1 => return { o with name := ← string? v }
    | 2 => return { o with options := o.options.append (← optionsOf depth [] v) }
    | _ => skipped depth v o) fs

/-- Take in a member of a message; `nested` reads the messages inside it. -/
def messageMember (nested : Value → Option MessageDecl) (depth : Nat) (m : MessageDecl) (n : Nat)
    (v : Value) : Option MessageDecl :=
  match n with
  | 1 => return { m with name := ← string? v }
  | 2 => return { m with fields := m.fields ++ [← sub depth field v] }
  | 3 => return { m with nested := m.nested ++ [← nested v] }
  | 4 => return { m with enums := m.enums ++ [← sub depth enum v] }
  | 5 => return { m with extensionRanges := m.extensionRanges ++ [← sub depth extensionRange v] }
  | 6 => return { m with extensions := m.extensions ++ [← sub depth field v] }
  | 7 => return { m with options := m.options.append (← optionsOf depth messageOptions v) }
  | 8 => return { m with oneofs := m.oneofs ++ [← sub depth oneof v] }
  | 9 => return { m with reserved := m.reserved ++ [← sub depth reservedRange v] }
  | 10 => (string? v).map (fun _ => m)
  | _ => skipped depth v m

def message : Nat → Fields → Option MessageDecl
  | 0, fs => collect {} (messageMember (fun _ => none) 0) fs
  | depth + 1, fs =>
    collect {} (messageMember (fun v => do message depth (← members? (depth + 1) v)) (depth + 1)) fs

def method (depth : Nat) (fs : Fields) : Option MethodDecl :=
  collect {} (fun m n v =>
    match n with
    | 1 => return { m with name := ← string? v }
    | 2 => return { m with input := ← string? v }
    | 3 => return { m with output := ← string? v }
    | 4 => return { m with options := m.options.append (← optionsOf depth methodOptions v) }
    | 5 | 6 => (bool? v).map (fun _ => m)
    | _ => skipped depth v m) fs

def service (depth : Nat) (fs : Fields) : Option ServiceDecl :=
  collect {} (fun s n v =>
    match n with
    | 1 => return { s with name := ← string? v }
    | 2 => return { s with methods := s.methods ++ [← sub depth method v] }
    | 3 => return { s with options := s.options.append (← optionsOf depth serviceOptions v) }
    | _ => skipped depth v s) fs

def location (depth : Nat) (fs : Fields) : Option Location :=
  collect {} (fun l n v =>
    match n with
    | 1 => return { l with path := l.path ++ (← ints? v) }
    | 2 => (ints? v).map (fun _ => l)
    | 3 => return { l with comment := some (← string? v) }
    | 4 | 6 => (string? v).map (fun _ => l)
    | _ => skipped depth v l) fs

def locations (depth : Nat) (fs : Fields) : Option (List Location) :=
  collect [] (fun ls n v =>
    match n with
    | 1 => return ls ++ [← sub depth location v]
    | _ => skipped depth v ls) fs

def file (depth : Nat) (fs : Fields) : Option FileDecl :=
  collect {} (fun f n v =>
    match n with
    | 1 => return { f with name := ← string? v }
    | 2 => return { f with package := ← string? v }
    | 3 => return { f with dependencies := f.dependencies ++ [← string? v] }
    | 4 => return { f with messages := f.messages ++ [← sub depth message v] }
    | 5 => return { f with enums := f.enums ++ [← sub depth enum v] }
    | 6 => return { f with services := f.services ++ [← sub depth service v] }
    | 7 => return { f with extensions := f.extensions ++ [← sub depth field v] }
    | 8 => return { f with options := f.options.append (← optionsOf depth fileOptions v) }
    | 9 => return { f with locations := f.locations ++ (← sub depth locations v) }
    | 10 => return { f with publicDependencies := f.publicDependencies ++ (← ints? v) }
    | 11 => return { f with weakDependencies := f.weakDependencies ++ (← ints? v) }
    | 12 => return { f with dialect := some (← string? v) }
    | _ => skipped depth v f) fs

/-- Read the files of a descriptor set. -/
def files? (bs : Wire.Bytes) : Option (List FileDecl) := do
  collect [] (fun files n v =>
    match n with
    | 1 => return files ++ [← sub Wire.maxDepth file v]
    | _ => skipped Wire.maxDepth v files) (← Wire.fields bs)

end AtomLog.Descriptor.Reader
