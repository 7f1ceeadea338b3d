import AtomLog.Document.Fit
import AtomLog.Json.Reader
import AtomLog.Toml.Reader
/-!
Fitting the texts of documents.
-/
namespace AtomLog

namespace Doc

mutual

/-- A value whose tables have their members in ascending order. Of members with one key the last
stays. -/
def ordered : Doc → Doc
  | .list ds => .list (orderedItems ds)
  | .table ms => .table ((orderedMembers ms).entries.map (fun (k, v) => (.str k, v)))
  | d => d

def orderedItems : List Doc → List Doc
  | [] => []
  | d :: ds => d.ordered :: orderedItems ds

def orderedMembers : List (Doc × Doc) → SortedMap String Doc
  | [] => ∅
  | (k, v) :: ms =>
    let later := orderedMembers ms
    match k with
    | .str k => if later.contains k then later else later.insert k v.ordered
    | _ => later

end

end Doc

namespace Fit

variable {α : Type}

/-- Fit the one value of a JSON text, after which nothing may follow. -/
def ofJson (f : Fit α) (text : String) : Except Misfit α := do
  let (d, ended) := Json.read text
  let a ← f .json d
  if ended then .ok a else .error .malformed

/-- Fit a JSON value that has been read as a whole, in the order of its keys. -/
def ofJsonValue (f : Fit α) (d : Doc) : Except Misfit α := f .jsonValue d.ordered

def ofToml (f : Fit α) (text : String) : Except Misfit α :=
  match Toml.read? text with
  | some d => f .toml d
  | none => .error .malformed

end Fit

end AtomLog
