/-!
Documents: texts of a data format that are read but not yet fitted to the model.
-/
namespace AtomLog

/-- A value of a document. A text that breaks off is kept up to there, because what comes first in
it may be refused before the break is met. -/
inductive Doc
  | null
  | bool (b : Bool)
  | int (n : Int)
  /-- A number with a fraction or exponent, as messages show it. -/
  | float (shown : String)
  | str (s : String)
  /-- A date or a time of day. -/
  | date (text : String)
  | list (items : List Doc)
  /-- The members with their keys, which are texts unless the document breaks off there. -/
  | table (members : List (Doc × Doc))
  /-- A value that may be skipped but not read: a text or a number that no value has. -/
  | unreadable
  /-- The document breaks off here. -/
  | broken
  deriving Inhabited

namespace Doc

/-- The key under which a date shows as a table. -/
def dateKey : String := "$__toml_private_datetime"

mutual

/-- Whether a document breaks off within a value. -/
def isBroken : Doc → Bool
  | .broken => true
  | .list items => anyBroken items
  | .table members => anyBrokenMember members
  | _ => false

def anyBroken : List Doc → Bool
  | [] => false
  | d :: ds => d.isBroken || anyBroken ds

def anyBrokenMember : List (Doc × Doc) → Bool
  | [] => false
  | (k, v) :: ms => k.isBroken || v.isBroken || anyBrokenMember ms

end

end Doc

end AtomLog
