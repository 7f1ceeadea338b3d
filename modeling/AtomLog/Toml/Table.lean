import AtomLog.Document.Basic
import AtomLog.Sorted.Map
import AtomLog.Toml.Text
/-!
The tables of a TOML document, as its lines build them up.

A table is opened once: by a header, or by the keys of pairs. Members stand in ascending order of
their keys.
-/
namespace AtomLog.Toml

inductive Opening
  /-- By a header of its own. -/
  | header
  /-- On the way of a longer header. -/
  | passing
  /-- By a key with dots. -/
  | key
  deriving DecidableEq, Repr

inductive Node
  | value (d : Doc)
  | table (opening : Opening) (members : List (String × Node))
  /-- The tables of equal headers in double brackets. -/
  | series (tables : List (List (String × Node)))

abbrev Members := List (String × Node)

namespace Members

def get? (ms : Members) (k : String) : Option Node := SortedMap.findEntry k ms

def insert (ms : Members) (k : String) (n : Node) : Members := SortedMap.insertEntry k n ms

/-- Replace the last table of a series. -/
def changeLast (f : Members → Option Members) (ts : List Members) : Option (List Members) :=
  match ts.getLast? with
  | some t => (f t).map (fun t => ts.dropLast ++ [t])
  | none => none

/-- Change the table that a header's path leads to, through the last tables of series. -/
def descend (f : Members → Option Members) : List String → Members → Option Members
  | [], ms => f ms
  | k :: ks, ms =>
    match ms.get? k with
    | none => (descend f ks []).map (fun t => ms.insert k (.table .passing t))
    | some (.table o t) => (descend f ks t).map (fun t => ms.insert k (.table o t))
    | some (.series ts) => (changeLast (descend f ks) ts).map (fun ts => ms.insert k (.series ts))
    | some (.value _) => none

/-- Open a table by its header. -/
def openTable (k : String) (ms : Members) : Option Members :=
  match ms.get? k with
  | none => some (ms.insert k (.table .header []))
  | some (.table .passing t) => some (ms.insert k (.table .header t))
  | some _ => none

/-- Open the next table of a series. -/
def openNext (k : String) (ms : Members) : Option Members :=
  match ms.get? k with
  | none => some (ms.insert k (.series [[]]))
  | some (.series ts) => some (ms.insert k (.series (ts ++ [[]])))
  | some _ => none

/-- Put a value at a key that is free. The keys on the way to it open tables, and they may enter
those that no header has opened; the last of these must be open by a key with dots. -/
def put (k : String) (d : Doc) : List String → Members → Option Members
  | [], ms => if (ms.get? k).isSome then none else some (ms.insert k (.value d))
  | p :: ps, ms =>
    match ms.get? p with
    | none => (put k d ps []).map (fun t => ms.insert p (.table .key t))
    | some (.table o t) =>
      if o = .header ∨ (ps = [] ∧ o ≠ .key) then none
      else (put k d ps t).map (fun t => ms.insert p (.table o t))
    | some (.series ts) =>
      if ps = [] then none
      else (changeLast (put k d ps) ts).map (fun ts => ms.insert p (.series ts))
    | some (.value _) => none

end Members

mutual

def Node.doc : Node → Doc
  | .value d => d
  | .table _ ms => .table (membersDoc ms)
  | .series ts => .list (seriesDocs ts)

def membersDoc : List (String × Node) → List (Doc × Doc)
  | [] => []
  | (k, n) :: ms => (.str k, n.doc) :: membersDoc ms

def seriesDocs : List (List (String × Node)) → List Doc
  | [] => []
  | t :: ts => .table (membersDoc t) :: seriesDocs ts

end

end AtomLog.Toml
