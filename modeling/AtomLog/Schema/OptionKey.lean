import AtomLog.Bits
/-!
The ways to name an option: by extension number, by extension and field number, or by name.
-/
namespace AtomLog

inductive OptionKey
  | number (extension : Nat)
  | nested (extension field : Nat)
  | name (name : String)
  deriving DecidableEq, Repr, Inhabited

namespace OptionKey

def digitsValue (ds : List Char) : Nat := ds.foldl (fun n d => 10 * n + (d.toNat - '0'.toNat)) 0

/-- The value of one or more decimal digits, if 32 bits hold it. -/
def digits? (ds : List Char) : Option Nat :=
  if !ds.isEmpty && ds.all Char.isDigit && Bits.isUnsigned 32 (digitsValue ds) then some (digitsValue ds)
  else none

/-- The value of a numeral: digits, with a plus sign in front or without. -/
def numeral? : List Char → Option Nat
  | '+' :: ds => digits? ds
  | ds => digits? ds

/-- The parts before and after the first dot. -/
def splitDot? : List Char → Option (List Char × List Char)
  | [] => none
  | c :: cs => if c == '.' then some ([], cs) else (splitDot? cs).map (fun p => (c :: p.1, p.2))

def nested? (cs : List Char) : Option (Nat × Nat) := do
  let (outer, inner) ← splitDot? cs
  return (← numeral? outer, ← numeral? inner)

/-- Read a key: a numeral is a number, two numerals with a dot between are a nested key, and
anything else is a name. -/
def parse (key : String) : OptionKey :=
  match nested? key.toList with
  | some (e, f) => .nested e f
  | none =>
    match numeral? key.toList with
    | some n => .number n
    | none => .name key

def text : OptionKey → String
  | .number n => s!"#{n}"
  | .nested e f => s!"#{e}.{f}"
  | .name s => s

end OptionKey

inductive OptionValue
  | bool (b : Bool)
  | int (n : Int)
  | str (s : String)
  deriving DecidableEq, Repr, Inhabited

/-- An option as it is written, before anything is known of its meaning. -/
structure RawOption where
  key : OptionKey
  value : OptionValue
  deriving DecidableEq, Repr, Inhabited

end AtomLog
