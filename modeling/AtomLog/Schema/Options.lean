import AtomLog.Bits
import AtomLog.Document.Fit
import AtomLog.Schema.OptionKey
/-!
Option tables: how options are written in a schema file.

A list gives its option once per element, and a table gives the fields of an option that is a
message, under keys with a dot between.
-/
namespace AtomLog

inductive OptionInput
  | one (value : OptionValue)
  | many (values : List OptionValue)
  | table (fields : SortedMap String OptionValue)

abbrev OptionTable := SortedMap String OptionInput

namespace OptionInput

/-- The options that a key with this value stands for. -/
def options (key : String) : OptionInput → List RawOption
  | .one v => [⟨OptionKey.parse key, v⟩]
  | .many vs => vs.map (fun v => ⟨OptionKey.parse key, v⟩)
  | .table fields => fields.entries.map (fun (field, v) => ⟨OptionKey.parse s!"{key}.{field}", v⟩)

end OptionInput

/-- All options of a table in the order of its keys. -/
def OptionTable.flatten (t : OptionTable) : List RawOption :=
  t.entries.flatMap (fun (key, input) => input.options key)

/-- A bool, a whole number of 64 bits with sign, or a text. -/
def OptionValue.ofDoc? : Doc → Option OptionValue
  | .bool b => some (.bool b)
  | .int n => if Bits.isSigned 64 n then some (.int n) else none
  | .str s => some (.str s)
  | _ => none

namespace OptionInput

def field? : Doc × Doc → Option (String × OptionValue)
  | (.str k, v) => (OptionValue.ofDoc? v).map (fun v => (k, v))
  | _ => none

def ofDoc? (d : Doc) : Option OptionInput :=
  match OptionValue.ofDoc? d with
  | some v => some (.one v)
  | none =>
    match d with
    | .list ds => (ds.mapM OptionValue.ofDoc?).map .many
    | d => do
      let fields ← (← d.members?).mapM field?
      some (.table (.ofList fields))

/-- The whole value is read before it is judged. -/
def fit : Fit OptionInput := fun s d => do
  Fit.any s d
  match ofDoc? d with
  | some input => .ok input
  | none => .error (.noAlternative "OptionInput")

end OptionInput

def OptionTable.fit : Fit OptionTable := Fit.map OptionInput.fit

end AtomLog
