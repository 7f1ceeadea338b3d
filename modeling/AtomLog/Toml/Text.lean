/-!
Quoted texts and keys of TOML documents.

A reader takes the characters after an opening sign and gives what it read with the rest.
-/
namespace AtomLog.Toml

abbrev Reader (α : Type) := List Char → Option (α × List Char)

def isSpace (c : Char) : Bool := c == ' ' || c == '\t'

def skipSpace (cs : List Char) : List Char := cs.dropWhile isSpace

/-- Whether a character may stand in a document at all, before the next one. -/
def isAllowed (c : Char) (next : Option Char) : Bool :=
  c == '\t' || c == '\n' || (c == '\r' && next == some '\n') || (0x20 ≤ c.toNat && c.toNat != 0x7f)

/-- Whether a text has no control characters but tabs and line ends. -/
def allAllowed : List Char → Bool
  | [] => true
  | c :: cs => isAllowed c cs.head? && allAllowed cs

def hexValue? (c : Char) : Option Nat :=
  if c.isDigit then some (c.toNat - '0'.toNat)
  else if 'a' ≤ c ∧ c ≤ 'f' then some (c.toNat - 'a'.toNat + 10)
  else if 'A' ≤ c ∧ c ≤ 'F' then some (c.toNat - 'A'.toNat + 10)
  else none

/-- The character with a number in hexadecimal digits. -/
def hexChar? (ds : List Char) : Option Char := do
  let n ← ds.foldlM (fun n c => (hexValue? c).map (16 * n + ·)) 0
  if n.isValidChar then some (Char.ofNat n) else none

def escape? : Char → Option Char
  | 'b' => some '\x08'
  | 't' => some '\t'
  | 'n' => some '\n'
  | 'f' => some '\x0c'
  | 'r' => some '\r'
  | 'e' => some '\x1b'
  | '"' => some '"'
  | '\\' => some '\\'
  | _ => none

/-- Put a character in front of what was read. -/
def consed (c : Option Char) (r : Option (List Char × List Char)) :
    Option (List Char × List Char) := do
  let (cs, rest) ← r
  some ((← c) :: cs, rest)

/-- A text in double quotes on one line. -/
def basic : Reader (List Char)
  | [] => none
  | '"' :: cs => some ([], cs)
  | '\\' :: 'x' :: a :: b :: cs => consed (hexChar? [a, b]) (basic cs)
  | '\\' :: 'u' :: a :: b :: c :: d :: cs => consed (hexChar? [a, b, c, d]) (basic cs)
  | '\\' :: 'U' :: a :: b :: c :: d :: e :: f :: g :: h :: cs =>
    consed (hexChar? [a, b, c, d, e, f, g, h]) (basic cs)
  | '\\' :: c :: cs => consed (escape? c) (basic cs)
  | c :: cs => if c == '\n' || c == '\\' then none else consed (some c) (basic cs)

/-- A text in single quotes on one line, which has no escapes. -/
def literal : Reader (List Char)
  | [] => none
  | '\'' :: cs => some ([], cs)
  | c :: cs => if c == '\n' then none else consed (some c) (literal cs)

/-- Three closing quotes and up to two before them, which belong to the text. -/
def closing (quote : Char) : List Char → List Char × List Char
  | a :: b :: cs =>
    if a == quote then if b == quote then ([a, b], cs) else ([a], b :: cs) else ([], a :: b :: cs)
  | [a] => if a == quote then ([a], []) else ([], [a])
  | [] => ([], [])

/-- What a backslash at the end of a line does to the text after it. -/
inductive Joining
  | no
  /-- The line end is still to come. -/
  | due
  /-- Space and line ends are left out. -/
  | done
  deriving DecidableEq

/-- A text in three double quotes, which may have line ends. -/
def multiBasic (j : Joining) : Reader (List Char)
  | [] => none
  | '"' :: '"' :: '"' :: cs => if j == .due then none else some (closing '"' cs)
  | '\\' :: 'x' :: a :: b :: cs =>
    if j == .due then none else consed (hexChar? [a, b]) (multiBasic .no cs)
  | '\\' :: 'u' :: a :: b :: c :: d :: cs =>
    if j == .due then none else consed (hexChar? [a, b, c, d]) (multiBasic .no cs)
  | '\\' :: 'U' :: a :: b :: c :: d :: e :: f :: g :: h :: cs =>
    if j == .due then none else consed (hexChar? [a, b, c, d, e, f, g, h]) (multiBasic .no cs)
  | '\\' :: c :: cs =>
    if j == .due then none
    else if isSpace c || c == '\r' then multiBasic .due cs
    else if c == '\n' then multiBasic .done cs
    else consed (escape? c) (multiBasic .no cs)
  | c :: cs =>
    if j != .no && (isSpace c || c == '\r') then multiBasic j cs
    else if j != .no && c == '\n' then multiBasic .done cs
    else if j == .due || c == '\\' then none
    else consed (some c) (multiBasic .no cs)

/-- A text in three single quotes, which may have line ends. -/
def multiLiteral : Reader (List Char)
  | [] => none
  | '\'' :: '\'' :: '\'' :: cs => some (closing '\'' cs)
  | c :: cs => consed (some c) (multiLiteral cs)

/-- A line end right after three opening quotes is left out. -/
def afterOpening : List Char → List Char
  | '\n' :: cs => cs
  | '\r' :: '\n' :: cs => cs
  | cs => cs

/-- A quoted text with its opening sign. -/
def quotedText : Reader (List Char)
  | '"' :: '"' :: '"' :: cs => multiBasic .no (afterOpening cs)
  | '\'' :: '\'' :: '\'' :: cs => multiLiteral (afterOpening cs)
  | '"' :: cs => basic cs
  | '\'' :: cs => literal cs
  | _ => none

def isBare (c : Char) : Bool := c.isAlphanum || c == '_' || c == '-'

/-- One part of a key. -/
def keyPart : Reader String
  | '"' :: cs => (basic cs).map (fun (k, rest) => (String.ofList k, rest))
  | '\'' :: cs => (literal cs).map (fun (k, rest) => (String.ofList k, rest))
  | cs =>
    let k := cs.takeWhile isBare
    if k.isEmpty then none else some (String.ofList k, cs.dropWhile isBare)

/-- A key as the parts before its last part, and that part. -/
structure Key where
  path : List String
  last : String

/-- A key of one part or more and no more than `room`, with dots between; space is skipped after
it. -/
def keyWithin : Nat → Reader Key
  | 0, _ => none
  | room + 1, cs => do
    let (k, cs) ← keyPart (skipSpace cs)
    match skipSpace cs with
    | '.' :: cs => do
      let (ks, cs) ← keyWithin room cs
      some ({ ks with path := k :: ks.path }, cs)
    | cs => some (⟨[], k⟩, cs)

/-- A key, which has at most eighty parts. -/
def key : Reader Key := keyWithin 80

end AtomLog.Toml
