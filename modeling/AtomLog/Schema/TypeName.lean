/-!
References to message types.

A name is a sequence of components between dots. A reference may leave out components at the front,
and leading dots carry no meaning.
-/
namespace AtomLog.TypeName

def undot (cs : List Char) : List Char := cs.dropWhile (· == '.')

def undotted (name : String) : String := String.ofList (undot name.toList)

/-- Whether `short` is `name` or what follows one of the dots in `name`. -/
def refersTo (name short : String) : Bool :=
  let n := undot name.toList
  let s := undot short.toList
  n == s || ('.' :: s).isSuffixOf n

end AtomLog.TypeName
