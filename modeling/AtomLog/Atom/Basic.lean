import AtomLog.Annotation.Basic
import AtomLog.Signature
/-!
Atoms: the events that can be logged, each with its code and its fields.
-/
namespace AtomLog

structure AtomField where
  name : String
  type : FieldType
  enumValues : SortedMap Int String := ∅
  deriving Inhabited

/-- A pushed atom is logged when it happens, a pulled one when it is asked for. -/
inductive AtomKind
  | pushed
  | pulled
  deriving DecidableEq, Repr, Inhabited

/-- An atom. Its fields are numbered from 1 in the order of `fields`. -/
structure Atom where
  code : Int
  name : String
  message : String := ""
  doc : String := ""
  fields : List AtomField := []
  modules : SortedSet String := ∅
  kind : AtomKind := .pushed
  annotations : FieldAnnotations := ∅
  uidField : Option Int := none
  primaryFields : List Int := []
  exclusiveField : Option Int := none
  defaultState : Option Int := none
  triggerStateReset : Option Int := none
  nested : Bool := false
  binaryFields : List Int := []
  truncateTimestamp : Bool := false
  whitelisted : Bool := false
  /-- The first two fields are a uid and a tag that stand for a chain of one node. -/
  nonChained : Bool := false
  deriving Inhabited

namespace Atom

/-- Atoms are known by their codes. -/
instance : BEq Atom := ⟨fun a b => a.code == b.code⟩

instance : Ord Atom := ⟨compareOn code⟩

/-- Atoms in the order of their codes, those with one code in the order given. -/
def sort (as : List Atom) : List Atom := as.mergeSort (fun a b => (compare a b).isLE)

/-- The primary field that stands for the first uid of the attribution chain. -/
def firstUid : Int := 0

def signature (a : Atom) : Signature := .ofTypes (a.fields.map AtomField.type)

def hasType (a : Atom) (t : FieldType) : Bool := a.fields.any (fun f => f.type == t)

def hasChain (a : Atom) : Bool := a.hasType .attributionChain

def isState (a : Atom) : Bool := !a.primaryFields.isEmpty || a.exclusiveField.isSome

def field? (a : Atom) (number : Int) : Option AtomField :=
  if number < 1 then none else a.fields[(number - 1).toNat]?

/-- The annotations at a field number, if there are any. -/
def annotationsAt (a : Atom) (number : Int) : Option AnnotationSet :=
  (a.annotations.get? number).filter (fun s => !s.isEmpty)

/-- The number that a field has once the two leading fields are one. -/
def shift? (number : Int) : Option Int := if 2 < number then some (number - 1) else none

def chainField : AtomField := { name := "attribution_chain", type := .attributionChain }

/-- Annotations after the two leading fields have become one: those of the atom stay, those of the
leading fields are gone. -/
def shiftAnnotations (m : FieldAnnotations) : FieldAnnotations :=
  .ofList (m.entries.filterMap (fun (number, set) =>
    if number = atomNumber then some (number, set)
    else (shift? number).map (fun n => (n, set))))

/-- The atom as callers with a chain see it: the leading uid and tag of an atom that is not chained
become one attribution chain. -/
def chained (a : Atom) : Atom :=
  if a.nonChained then
    { a with
      fields := chainField :: a.fields.drop 2
      annotations := shiftAnnotations a.annotations
      uidField := none
      primaryFields := a.primaryFields.filterMap shift?
      exclusiveField := a.exclusiveField.bind shift?
      binaryFields := a.binaryFields.filterMap shift?
      nonChained := false }
  else a

end Atom

end AtomLog
