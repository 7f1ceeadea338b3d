import AtomLog.Toml.Value
/-!
Reading TOML documents line by line.
-/
namespace AtomLog.Toml

/-- The tables built so far, and the path of the one that is open. -/
structure Builder where
  root : Members
  current : List String

namespace Builder

def empty : Builder := ⟨[], []⟩

def openTable (b : Builder) (k : Key) : Option Builder :=
  (Members.descend (·.openTable k.last) k.path b.root).map (⟨·, k.path ++ [k.last]⟩)

def openNext (b : Builder) (k : Key) : Option Builder :=
  (Members.descend (·.openNext k.last) k.path b.root).map (⟨·, k.path ++ [k.last]⟩)

def put (b : Builder) (k : Key) (d : Doc) : Option Builder :=
  (Members.descend (·.put k.last d k.path) b.current b.root).map ({ b with root := · })

end Builder

/-- Read a header or a pair. -/
def line (b : Builder) : Reader Builder
  | '[' :: '[' :: cs => do
    let (k, cs) ← key cs
    let (_, cs) ← sign ']' cs
    let (_, cs) ← sign ']' cs
    some (← b.openNext k, cs)
  | '[' :: cs => do
    let (k, cs) ← key cs
    let (_, cs) ← sign ']' cs
    some (← b.openTable k, cs)
  | cs => do
    let (k, cs) ← key cs
    let (_, cs) ← sign '=' cs
    let (d, cs) ← value (cs.length + 1) 0 (skipSpace cs)
    some (← b.put k d, cs)

/-- The rest after a line, which ends there or in a comment. -/
def lineEnd (cs : List Char) : Option (List Char) :=
  match skipSpace cs with
  | [] => some []
  | '\r' :: '\n' :: cs => some cs
  | '\n' :: cs => some cs
  | '#' :: cs => some (cs.dropWhile (· != '\n'))
  | _ => none

def readLines : Nat → Builder → List Char → Option Builder
  | 0, _, _ => none
  | fuel + 1, b, cs =>
    match skipLines cs with
    | [] => some b
    | cs => do
      let (b, cs) ← line b cs
      readLines fuel b (← lineEnd cs)

/-- Read a document, which may start with a byte order mark. -/
def read? (text : String) : Option Doc :=
  let cs := match text.toList with
    | '\ufeff' :: cs => cs
    | cs => cs
  if allAllowed cs then
    (readLines (cs.length + 1) .empty cs).map (fun b => .table (membersDoc b.root))
  else none

end AtomLog.Toml
