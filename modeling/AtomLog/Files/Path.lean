import AtomLog.Text.Split
/-!
Paths of files, as texts.

Slashes stand between the names of a path. A path that ends in a slash or in a single dot has the
same parent and the same last name as without it.
-/
namespace AtomLog.Path

/-- The names of a path, which empty ones between slashes are not. -/
def names (path : String) : List String := (Text.split '/' path).filter (!·.isEmpty)

/-- Drop slashes and single dots from the end of a path, which is read backwards. What the path
starts with stays. -/
def trimBack : List Char → List Char
  | '/' :: cs => if cs.isEmpty then ['/'] else trimBack cs
  | '.' :: '/' :: cs => if cs.isEmpty then ['/'] else trimBack cs
  | cs => cs

def trimEnd (cs : List Char) : List Char := (trimBack cs.reverse).reverse

/-- What is left of a path without its last name: nothing for a path of one name, and no parent for
the root and the empty path. -/
def parent? (path : String) : Option String :=
  let cs := trimEnd path.toList
  if cs.isEmpty || cs == ['/'] then none
  else
    let rest := (cs.reverse.dropWhile (· != '/')).reverse
    some (String.ofList (trimEnd rest))

/-- A path and its parents up to the last one that is not empty. -/
def ancestors : Nat → String → List String
  | 0, _ => []
  | fuel + 1, path =>
    if path.isEmpty then []
    else
      path :: match parent? path with
        | some p => ancestors fuel p
        | none => []

/-- Whether the last name of a path ends in an extension and has something in front of it. -/
def hasExtension (extension path : String) : Bool :=
  match ((names path).filter (· != ".")).getLast? with
  | none => false
  | some name =>
    let suffix := '.' :: extension.toList
    suffix.isSuffixOf name.toList && suffix.length < name.length

end AtomLog.Path
