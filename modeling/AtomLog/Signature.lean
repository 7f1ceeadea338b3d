import AtomLog.FieldType
/-!
The sequence of types of an atom's fields, by which atoms share a write function.
-/
namespace AtomLog

structure Signature where
  types : List FieldType
  deriving DecidableEq, Repr, Inhabited

namespace Signature

/-- Two signatures are compared type by type, and a shorter one comes before its extensions. -/
instance : Ord Signature := ⟨compareOn types⟩

instance : Std.TransOrd Signature := inferInstanceAs (Std.TransCmp (compareOn types))

instance : Std.LawfulEqOrd Signature where
  compare_self {a} := show compare a.types a.types = .eq from Std.ReflCmp.compare_self
  eq_of_compare {a b} h := by
    have h : compare a.types b.types = .eq := h
    cases a
    cases b
    exact congrArg mk (Std.LawfulEqCmp.eq_of_compare h)

/-- The signature of fields of these types: an enum counts as its number. -/
def ofTypes (ts : List FieldType) : Signature := ⟨ts.map FieldType.wire⟩

/-- The name of a signature: its types joined by double underscores, `void` without any. -/
def mangledName (s : Signature) : String :=
  if s.types.isEmpty then "void" else String.intercalate "__" (s.types.map FieldType.name)

def text (s : Signature) : String :=
  "[" ++ String.intercalate ", " (s.types.map FieldType.name) ++ "]"

end Signature

end AtomLog
