import AtomLog.Atom.Catalog
import AtomLog.Text.Blank
/-!
Selecting the atoms of one module.
-/
namespace AtomLog

inductive Selection
  | all
  | module (name : String)
  deriving DecidableEq, Repr, Inhabited

namespace Selection

/-- The word that selects every atom. -/
def defaultName : String := "DEFAULT"

/-- Read a module name, trimmed: the default word and the empty name select every atom. -/
def parse (name : String) : Selection :=
  let name := Text.trim name
  if name == "" || name == defaultName then .all else .module name

def isDefault : Selection → Bool
  | .all => true
  | .module _ => false

def name : Selection → String
  | .all => defaultName
  | .module m => m

end Selection

/-- A module that no atom belongs to, which is most likely misspelt. -/
structure EmptyModule where
  name : String
  deriving DecidableEq, Repr, Inhabited

def EmptyModule.message (e : EmptyModule) : String := s!"no atoms belong to module '{e.name}'"

/-- The catalog of the selected atoms. -/
def Catalog.select (c : Catalog) : Selection → Except EmptyModule Catalog
  | .all => .ok c
  | .module m =>
    match c.toList.filter (fun a => decide (m ∈ a.modules)) with
    | [] => .error ⟨m⟩
    | as => .ok (ofAtoms as)

end AtomLog
