import AtomLog.Atom.Basic
/-!
Catalogs: atoms by code, and for each signature the atoms that share it.
-/
namespace AtomLog

/-- The atoms of one signature, and their annotations by field number and code. -/
structure Bucket where
  codes : SortedSet Int := ∅
  annotations : SortedMap Int (SortedMap Int AnnotationSet) := ∅
  deriving Inhabited

namespace Bucket

/-- Add the annotations of an atom at one field number, unless there are none. -/
def annotate (b : Bucket) (code number : Int) (set : AnnotationSet) : Bucket :=
  if set.isEmpty then b
  else
    { b with
      annotations := b.annotations.modify number (fun m => (m.getD ∅).insert code set) }

def add (b : Bucket) (a : Atom) : Bucket :=
  a.annotations.entries.foldl (fun b (number, set) => b.annotate a.code number set)
    { b with codes := b.codes.insert a.code }

end Bucket

abbrev Buckets := SortedMap Signature Bucket

namespace Buckets

def add (m : Buckets) (a : Atom) : Buckets :=
  m.modify a.signature (fun b => (b.getD {}).add a)

def ofAtoms (as : List Atom) : Buckets := as.foldl add ∅

end Buckets

structure Catalog where
  atoms : SortedMap Int Atom := ∅
  /-- The pushed atoms as seen with a chain. -/
  pushed : Buckets := ∅
  /-- The pulled atoms as seen with a chain. -/
  pulled : Buckets := ∅
  /-- The flat signatures of the atoms that are not chained. -/
  nonChained : Buckets := ∅
  /-- The highest code of a pushed atom, at least 0. -/
  maxPushedCode : Int := 0
  deriving Inhabited

namespace Catalog

/-- The catalog of atoms under distinct codes. -/
def ofMap (m : SortedMap Int Atom) : Catalog :=
  let pushed := m.values.filter (fun a => a.kind == .pushed)
  { atoms := m
    pushed := .ofAtoms (pushed.map Atom.chained)
    pulled := .ofAtoms ((m.values.filter (fun a => a.kind == .pulled)).map Atom.chained)
    nonChained := .ofAtoms (m.values.filter Atom.nonChained)
    maxPushedCode := pushed.foldl (fun n a => max n a.code) 0 }

/-- The catalog of a list of atoms: of two atoms with one code the later counts. -/
def ofAtoms (as : List Atom) : Catalog := ofMap (.ofList (as.map (fun a => (a.code, a))))

/-- The atoms in the order of their codes. -/
def toList (c : Catalog) : List Atom := c.atoms.values

def codes (c : Catalog) : List Int := c.atoms.keys

def get? (c : Catalog) (code : Int) : Option Atom := c.atoms.get? code

end Catalog

end AtomLog
