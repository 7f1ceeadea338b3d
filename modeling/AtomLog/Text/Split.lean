/-!
Splitting at a separator.
-/
namespace AtomLog.Text

/-- The pieces between separators, one more than there are separators. -/
def splitChars (sep : Char) : List Char → List (List Char)
  | [] => [[]]
  | c :: cs =>
    if c == sep then [] :: splitChars sep cs
    else
      match splitChars sep cs with
      | p :: ps => (c :: p) :: ps
      | [] => [[c]]

def split (sep : Char) (s : String) : List String := (splitChars sep s.toList).map String.ofList

end AtomLog.Text
