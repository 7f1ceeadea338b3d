import AtomLog.Atom.Selection
import AtomLog.Naming
/-!
What every emitter reads, and the constants that the outputs share.
-/
namespace AtomLog.Emit

structure Context where
  catalog : Catalog
  /-- The fields of an attribution node. -/
  attribution : Atom
  selection : Selection
  deriving Inhabited

namespace Context

/-- The constant of an atom's code. -/
def atomConstant (ctx : Context) (code : Int) : String :=
  match ctx.catalog.get? code with
  | some a => Naming.constant a.name
  | none => toString code

/-- The name of the uids of a chain: the first field of a node. -/
def uidName (ctx : Context) : String :=
  (ctx.attribution.fields.head?.map AtomField.name).getD "uid"

/-- The name of the tags of a chain: the last field of a node. -/
def tagName (ctx : Context) : String :=
  (ctx.attribution.fields.getLast?.map AtomField.name).getD "tag"

/-- The constants of the values of an atom's enum fields. -/
def enumConstantsOf (a : Atom) : List (String × Int) :=
  (a.fields.filter (fun f => f.type.isEnum)).flatMap (fun f =>
    f.enumValues.entries.map (fun (value, symbol) =>
      (Naming.enumConstant a.name f.name symbol, value)))

def enumConstants (ctx : Context) : List (String × Int) :=
  ctx.catalog.toList.flatMap enumConstantsOf

end Context

def banner : String := "// This file is autogenerated"

/-- What an output language can express. -/
structure Target where
  name : String
  supports : FieldType → Bool

namespace Target

def supportsSignature (t : Target) (s : Signature) : Bool := s.types.all t.supports

def supportsAtom (t : Target) (a : Atom) : Bool := a.fields.all (fun f => t.supports f.type)

/-- The signatures of a language's functions. The other ones are left out. -/
def supported (t : Target) (m : Buckets) : List (Signature × Bucket) :=
  m.entries.filter (fun e => t.supportsSignature e.1)

end Target

structure Param where
  type : String
  name : String
  deriving DecidableEq, Repr, Inhabited

end AtomLog.Emit
