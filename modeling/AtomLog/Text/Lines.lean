import AtomLog.Text.Blank
/-!
Texts as lines.

A line ends at a line feed, and a carriage return before that feed belongs to the end. What follows
the last feed is a line unless it is empty.
-/
namespace AtomLog.Text

/-- The lines of a text whose current line, read backwards, is `line`. -/
def linesFrom (line : List Char) : List Char → List (List Char)
  | [] => if line.isEmpty then [] else [line.reverse]
  | '\n' :: cs => (match line with
      | '\r' :: l => l
      | l => l).reverse :: linesFrom [] cs
  | c :: cs => linesFrom (c :: line) cs

def lines (s : String) : List String := (linesFrom [] s.toList).map String.ofList

/-- The text that has these lines, each ended by a line feed. -/
def ofLines (ls : List String) : String := String.join (ls.map (· ++ "\n"))

theorem ofLines_cons (l : String) (ls : List String) : ofLines (l :: ls) = l ++ ("\n" ++ ofLines ls) := by
  simp [ofLines, String.append_assoc]

/-- Remove the empty lines at both ends. -/
def stripEmpty (ls : List (List Char)) : List (List Char) :=
  ((ls.dropWhile List.isEmpty).reverse.dropWhile List.isEmpty).reverse

/-- The lines of a comment text: each trimmed at its end, without the blank ones at both ends. -/
def docLines (doc : String) : List String :=
  (stripEmpty ((linesFrom [] doc.toList).map trimEnd)).map String.ofList

end AtomLog.Text
