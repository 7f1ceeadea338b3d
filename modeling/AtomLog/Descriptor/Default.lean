import AtomLog.Descriptor.Content
import AtomLog.Descriptor.Declaration
import AtomLog.Schema.FieldKind
import AtomLog.Text.Bytes
/-!
Default values of fields, which are written as texts.
-/
namespace AtomLog.Descriptor.Default

def digits? (cs : List Char) : Option Nat :=
  if cs.isEmpty || !cs.all Char.isDigit then none
  else some (cs.foldl (fun n c => 10 * n + (c.toNat - '0'.toNat)) 0)

/-- A whole number with or without a sign. -/
def int? : List Char → Option Int
  | '+' :: cs => (digits? cs).map Int.ofNat
  | '-' :: cs => (digits? cs).map (fun n => -(n : Int))
  | cs => (digits? cs).map Int.ofNat

/-- A whole number without a minus sign, not even on a zero. -/
def unsigned? (cs : List Char) : Option Int := if cs.head? = some '-' then none else int? cs

def isExponent : List Char → Bool
  | [] => true
  | c :: cs => (c == 'e' || c == 'E') && (int? cs).isSome

/-- The digits of a decimal, which stand before or after its point, where an exponent may follow. -/
def decimal? (cs : List Char) : Option (List Char) :=
  let whole := cs.takeWhile Char.isDigit
  let (fraction, rest) := match cs.dropWhile Char.isDigit with
    | '.' :: rest => (rest.takeWhile Char.isDigit, rest.dropWhile Char.isDigit)
    | rest => ([], rest)
  let ds := whole ++ fraction
  if ds.isEmpty || !isExponent rest then none else some ds

/-- Whether a number with a fraction is zero, if it is one. -/
def fraction? (cs : List Char) : Option Bool :=
  let cs := match cs with
    | '+' :: cs | '-' :: cs => cs
    | cs => cs
  if ["inf", "infinity", "nan"].contains (String.ofList (cs.map Char.toLower)) then some false
  else (decimal? cs).map (·.all (· == '0'))

def hexValue? (c : Char) : Option Nat :=
  if c.isDigit then some (c.toNat - '0'.toNat)
  else if 'a' ≤ c.toLower ∧ c.toLower ≤ 'f' then some (c.toLower.toNat - 'a'.toNat + 10)
  else none

/-- The byte with two hexadecimal digits, or a plus sign and one. -/
def hexByte? (a b : Char) : Option UInt8 := do
  let high ← if a == '+' then some 0 else hexValue? a
  return (16 * high + (← hexValue? b)).toUInt8

def escape? : Char → Option UInt8
  | 'a' => some 0x07
  | 'b' => some 0x08
  | 'f' => some 0x0c
  | 'n' => some 0x0a
  | 'r' => some 0x0d
  | 't' => some 0x09
  | 'v' => some 0x0b
  | '?' => some 0x3f
  | '\\' => some 0x5c
  | '\'' => some 0x27
  | '"' => some 0x22
  | _ => none

def isOctal (c : Char) : Bool := '0' ≤ c && c ≤ '7'

/-- The byte that octal digits give. -/
def octalByte (ds : List Char) : UInt8 :=
  (ds.foldl (fun n d => 8 * n + (d.toNat - '0'.toNat)) 0).toUInt8

/-- Put a byte in front of what was read. -/
def consed (b : Option UInt8) (bs : Option (List UInt8)) : Option (List UInt8) :=
  return (← b) :: (← bs)

/-- Read bytes that are written as a text with escapes: of a letter, two hexadecimal or up to three
octal digits. -/
def unescape? : List Char → Option (List UInt8)
  | [] => some []
  | '\\' :: 'x' :: a :: b :: cs | '\\' :: 'X' :: a :: b :: cs => consed (hexByte? a b) (unescape? cs)
  | '\\' :: c :: cs =>
    if isOctal c then
      let ds := ((c :: cs).takeWhile isOctal).take 3
      consed (octalByte ds) (unescape? ((c :: cs).drop ds.length))
    else consed (escape? c) (unescape? cs)
  | c :: cs => if c == '\\' then none else (unescape? cs).map (Text.bytes c.toString ++ ·)
termination_by cs => cs.length

/-- The value of a kind that a text gives; `values` are those of the enum. -/
def value? (k : FieldKind) (values : List EnumValueDecl) (text : String) : Option Content :=
  let cs := text.toList
  match k with
  | .int32 | .sint32 | .sfixed32 | .int64 | .sint64 | .sfixed64 =>
    (int? cs).bind (Content.number? k)
  | .uint32 | .fixed32 | .uint64 | .fixed64 => (unsigned? cs).bind (Content.number? k)
  | .float | .double => (fraction? cs).map .fraction
  | .bool =>
    if text == "true" then some (.bool true)
    else if text == "false" then some (.bool false)
    else none
  | .string => some (.str text)
  | .bytes => (unescape? cs).map .bytes
  | .enum => (values.find? (·.name == text)).map (fun v => .enumNumber (.ofInt v.number))
  | .message | .group => none

/-- What a member counts as where it is not set and has no default value of its own. -/
def plain (k : FieldKind) (values : List EnumValueDecl) : Content :=
  match k with
  | .float | .double => .fraction true
  | .bool => .bool false
  | .string => .str ""
  | .bytes => .bytes []
  | .enum => .enumNumber (.ofInt ((values.head?.map EnumValueDecl.number).getD 0))
  | .message | .group => .message []
  | .int32 | .sint32 | .sfixed32 => .int32 0
  | .int64 | .sint64 | .sfixed64 => .int64 0
  | .uint32 | .fixed32 => .uint32 0
  | .uint64 | .fixed64 => .uint64 0

end AtomLog.Descriptor.Default
