import AtomLog.Document.Misfit
import AtomLog.Sorted.Map
/-!
Fitting documents to types.

A value is fitted in the order of the document, so that of several misfits the first one is
reported. A record may be written as a table of its fields or as the list of their values.
-/
namespace AtomLog

inductive Format
  | json
  | toml
  deriving DecidableEq, Repr, Inhabited

/-- Where a value stands. -/
inductive Setting
  | toml
  /-- In a JSON text, where so many lists and tables may still enclose it. -/
  | jsonText (room : Nat)
  /-- In a JSON value that has been read as a whole. -/
  | jsonValue
  deriving DecidableEq, Repr, Inhabited

namespace Setting

def json : Setting := .jsonText 128

/-- Enter a list or a table. Only JSON texts may be too deep. -/
def enter : Setting → Except Misfit Setting
  | .jsonText room => if room ≤ 1 then .error .malformed else .ok (.jsonText (room - 1))
  | s => .ok s

end Setting

abbrev Fit (α : Type) := Setting → Doc → Except Misfit α

/-- The members of a value that shows as a table. -/
def Doc.members? : Doc → Option (List (Doc × Doc))
  | .table ms => some ms
  | .date text => some [(.str dateKey, .str text)]
  | _ => none

/-- The text of a key. -/
def Doc.key : Doc → Except Misfit String
  | .str s => .ok s
  | _ => .error .malformed

namespace Fit

variable {α : Type}

def text (expected : String) : Fit String
  | _, .str s => .ok s
  | _, d => .error (d.unexpected expected)

def string : Fit String := text "a string"

def path : Fit String := text "path string"

def boolean : Fit Bool
  | _, .bool b => .ok b
  | _, d => .error (d.unexpected "a boolean")

def int32 : Fit Int
  | _, .int n =>
    if Bits.isSigned 32 n then .ok n
    else if Bits.fits 64 n then .error (.wrongValue (Doc.intText n) "i32")
    else .error (.wrongType (Doc.intText n) "i32")
  | _, d => .error (d.unexpected "i32")

/-- A value that may be null. -/
def optional (f : Fit α) : Fit (Option α)
  | _, .null => .ok none
  | s, d => (f s d).map some

def list (f : Fit α) : Fit (List α)
  | s, .list ds => do
    let s ← s.enter
    ds.mapM (f s)
  | _, d => .error (d.unexpected "a sequence")

/-- A table with any keys. Of two members with one key the later stays. -/
def map (f : Fit α) : Fit (SortedMap String α) := fun s d =>
  match d.members? with
  | none => .error (d.unexpected "a map")
  | some ms => do
    let s ← s.enter
    ms.foldlM (fun m (k, v) => return m.insert (← k.key) (← f s v)) ∅

/-- A value that is skipped. -/
def skip (d : Doc) : Except Misfit Unit := if d.isBroken then .error .malformed else .ok ()

mutual

/-- A value of any type that the format has and 64 bits hold. -/
def any : Fit Unit
  | s, .list ds => do anyItem (← s.enter) ds
  | s, .table ms => do anyMember (← s.enter) ms
  | _, .int n =>
    if Bits.fits 64 n then .ok ()
    else .error (.wrongType (Doc.intText n) "any value")
  | _, .unreadable | _, .broken => .error .malformed
  | _, _ => .ok ()

def anyItem (s : Setting) : List Doc → Except Misfit Unit
  | [] => .ok ()
  | d :: ds => do
    any s d
    anyItem s ds

def anyMember (s : Setting) : List (Doc × Doc) → Except Misfit Unit
  | [] => .ok ()
  | (k, v) :: ms => do
    let _ ← k.key
    any s v
    anyMember s ms

end

end Fit

/-- A field of a record: `set` reads its value into a record. -/
structure Slot (α : Type) where
  name : String
  required : Bool
  set : Setting → Doc → α → Except Misfit α

namespace Slot

variable {α β : Type}

def of (name : String) (required : Bool) (f : Fit β) (put : α → β → α) : Slot α :=
  ⟨name, required, fun s d a => (f s d).map (put a)⟩

end Slot

/-- How a record is written: its title in messages, its fields, what it is without them, and whether
it may have no other members. -/
structure Shape (α : Type) where
  title : String
  slots : List (Slot α)
  start : α
  closed : Bool := false

namespace Shape

variable {α : Type}

/-- Read the members in order; `seen` holds the names of the fields read before. -/
def readMembers (sh : Shape α) (s : Setting) (a : α) (seen : List String) :
    List (Doc × Doc) → Except Misfit (α × List String)
  | [] => .ok (a, seen)
  | (k, v) :: ms => do
    let name ← k.key
    match sh.slots.find? (·.name == name) with
    | some slot =>
      if seen.contains name then .error (.duplicateField name)
      else readMembers sh s (← slot.set s v a) (name :: seen) ms
    | none =>
      if sh.closed then .error (.unknownField name (sh.slots.map Slot.name))
      else do
        Fit.skip v
        readMembers sh s a seen ms

/-- A record written as a table. -/
def ofMembers (sh : Shape α) (s : Setting) (ms : List (Doc × Doc)) : Except Misfit α := do
  let (a, seen) ← readMembers sh s sh.start [] ms
  match sh.slots.find? (fun slot => slot.required && !seen.contains slot.name) with
  | some slot => .error (.missingField slot.name)
  | none => .ok a

def lengthMisfit (sh : Shape α) (n : Nat) : Misfit :=
  .wrongLength n s!"{sh.title} with {sh.slots.length} elements"

/-- Read the values of the fields in their order, after `n` of them. -/
def readItems (sh : Shape α) (s : Setting) (n : Nat) (a : α) :
    List (Slot α) → List Doc → Except Misfit α
  | [], [] => .ok a
  | [], d :: ds =>
    match s with
    | .toml => .ok a
    | .jsonText _ => .error .malformed
    | .jsonValue => .error (.wrongLength (n + (d :: ds).length) "fewer elements in array")
  | slot :: slots, [] =>
    if slot.required then .error (sh.lengthMisfit n) else readItems sh s (n + 1) a slots []
  | slot :: slots, d :: ds => do readItems sh s (n + 1) (← slot.set s d a) slots ds

def fit (sh : Shape α) : Fit α := fun s d =>
  match d with
  | .list ds => do readItems sh (← s.enter) 0 sh.start sh.slots ds
  | d =>
    match d.members? with
    | some ms => do ofMembers sh (← s.enter) ms
    | none => .error (d.unexpected sh.title)

end Shape

end AtomLog
