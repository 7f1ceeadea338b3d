import AtomLog.Bits
import AtomLog.Document.Basic
import AtomLog.Text.Quoted
/-!
Why a document does not fit the model.
-/
namespace AtomLog

inductive Misfit
  /-- The text follows no grammar, or not one of the model. -/
  | malformed
  | missingField (name : String)
  | duplicateField (name : String)
  | unknownField (name : String) (known : List String)
  | unknownVariant (name : String) (known : List String)
  | wrongType (found expected : String)
  | wrongValue (found expected : String)
  | wrongLength (length : Nat) (expected : String)
  /-- A value that is none of the alternatives of a type. -/
  | noAlternative (type : String)
  deriving DecidableEq, Repr, Inhabited

namespace Misfit

def ticked (s : String) : String := "`" ++ s ++ "`"

def choices : List String → String
  | [] => "there are no fields"
  | [a] => "expected " ++ ticked a
  | [a, b] => "expected " ++ ticked a ++ " or " ++ ticked b
  | names => "expected one of " ++ ", ".intercalate (names.map ticked)

/-- The message of a misfit, where it is one of the model and not of the grammar. -/
def message? : Misfit → Option String
  | .malformed => none
  | .missingField name => some ("missing field " ++ ticked name)
  | .duplicateField name => some ("duplicate field " ++ ticked name)
  | .unknownField name known => some ("unknown field " ++ ticked name ++ ", " ++ choices known)
  | .unknownVariant name known => some ("unknown variant " ++ ticked name ++ ", " ++ choices known)
  | .wrongType found expected => some s!"invalid type: {found}, expected {expected}"
  | .wrongValue found expected => some s!"invalid value: {found}, expected {expected}"
  | .wrongLength length expected => some s!"invalid length {length}, expected {expected}"
  | .noAlternative type => some s!"data did not match any variant of untagged enum {type}"

end Misfit

namespace Doc

/-- A whole number in a message, with its width where 64 bits do not hold it. -/
def intText (n : Int) : String :=
  let text := "integer " ++ Misfit.ticked (toString n)
  if Bits.fits 64 n then text
  else if Bits.isSigned 128 n then text ++ " as i128"
  else text ++ " as u128"

/-- What a value is, in a message. -/
def found? : Doc → Option String
  | .null => some "null"
  | .bool b => some ("boolean " ++ Misfit.ticked (toString b))
  | .int n => some (intText n)
  | .float shown => some ("floating point " ++ Misfit.ticked shown)
  | .str s => some ("string " ++ Text.quoted s)
  | .list _ => some "sequence"
  | .date _ | .table _ => some "map"
  | .unreadable | .broken => none

/-- The misfit of a value where another one is expected. -/
def unexpected (expected : String) (d : Doc) : Misfit :=
  match d.found? with
  | some found => .wrongType found expected
  | none => .malformed

end Doc

end AtomLog
