import AtomLog.Json.Number
/-!
Reading JSON texts.

A text that is no JSON is read up to where it breaks off, so what stands before can still be judged.
-/
namespace AtomLog.Json

def isSpace (c : Char) : Bool := c == ' ' || c == '\n' || c == '\t' || c == '\r'

def skipSpace (cs : List Char) : List Char := cs.dropWhile isSpace

/-- A piece of a quoted text: a character, or a number given by an escape. -/
inductive Piece
  | char (c : Char)
  | unit (n : Nat)

def hexValue? (c : Char) : Option Nat :=
  if c.isDigit then some (c.toNat - '0'.toNat)
  else if 'a' ≤ c ∧ c ≤ 'f' then some (c.toNat - 'a'.toNat + 10)
  else if 'A' ≤ c ∧ c ≤ 'F' then some (c.toNat - 'A'.toNat + 10)
  else none

def hexNumber? (cs : List Char) : Option Nat :=
  cs.foldlM (fun n c => (hexValue? c).map (16 * n + ·)) 0

def escape? : Char → Option Char
  | '"' => some '"'
  | '\\' => some '\\'
  | '/' => some '/'
  | 'b' => some '\x08'
  | 'f' => some '\x0c'
  | 'n' => some '\n'
  | 'r' => some '\r'
  | 't' => some '\t'
  | _ => none

/-- The pieces up to the closing quote and what follows it. -/
def pieces? : List Char → Option (List Piece × List Char)
  | [] => none
  | '"' :: cs => some ([], cs)
  | '\\' :: 'u' :: a :: b :: c :: d :: cs => do
    let n ← hexNumber? [a, b, c, d]
    let (ps, rest) ← pieces? cs
    some (.unit n :: ps, rest)
  | '\\' :: c :: cs => do
    let e ← escape? c
    let (ps, rest) ← pieces? cs
    some (.char e :: ps, rest)
  | c :: cs => do
    if c.toNat < 0x20 ∨ c = '\\' then none
    else
      let (ps, rest) ← pieces? cs
      some (.char c :: ps, rest)

def isHigh (n : Nat) : Bool := 0xD800 ≤ n && n < 0xDC00

def isLow (n : Nat) : Bool := 0xDC00 ≤ n && n < 0xE000

/-- The characters of a text. A high number and the low one after it make one character, and
neither makes one alone. -/
def joined? : List Piece → Option (List Char)
  | [] => some []
  | .char c :: ps => (joined? ps).map (c :: ·)
  | .unit n :: .unit m :: ps =>
    if isHigh n then
      if isLow m then
        (joined? ps).map (Char.ofNat (0x10000 + (n - 0xD800) * 0x400 + (m - 0xDC00)) :: ·)
      else none
    else if isLow n then none
    else (joined? (.unit m :: ps)).map (Char.ofNat n :: ·)
  | .unit n :: ps =>
    if isHigh n || isLow n then none else (joined? ps).map (Char.ofNat n :: ·)

def textOf (ps : List Piece) : Doc :=
  match joined? ps with
  | some cs => .str (String.ofList cs)
  | none => .unreadable

/-- What was read, and the rest unless the text breaks off. -/
abbrev Read (α : Type) := α × Option (List Char)

/-- What follows `word`, if that is at the front. -/
def after? : List Char → List Char → Option (List Char)
  | [], cs => some cs
  | w :: ws, c :: cs => if w == c then after? ws cs else none
  | _ :: _, [] => none

def word (w : String) (d : Doc) (cs : List Char) : Read Doc :=
  match after? w.toList cs with
  | some rest => (d, some rest)
  | none => (.broken, none)

mutual

/-- Read a value. -/
def value : Nat → List Char → Read Doc
  | 0, _ => (.broken, none)
  | fuel + 1, cs =>
    match skipSpace cs with
    | 'n' :: cs => word "ull" .null cs
    | 't' :: cs => word "rue" (.bool true) cs
    | 'f' :: cs => word "alse" (.bool false) cs
    | '"' :: cs =>
      match pieces? cs with
      | some (ps, rest) => (textOf ps, some rest)
      | none => (.broken, none)
    | '[' :: cs =>
      match skipSpace cs with
      | ']' :: rest => (.list [], some rest)
      | cs => (items fuel cs).map .list id
    | '{' :: cs =>
      match skipSpace cs with
      | '}' :: rest => (.table [], some rest)
      | cs => (members fuel cs).map .table id
    | cs =>
      match number? cs with
      | some (d, rest) => (d, some rest)
      | none => (.broken, none)

/-- Read one or more items up to the closing bracket. -/
def items : Nat → List Char → Read (List Doc)
  | 0, _ => ([.broken], none)
  | fuel + 1, cs =>
    match value fuel cs with
    | (d, none) => ([d], none)
    | (d, some cs) =>
      match skipSpace cs with
      | ']' :: rest => ([d], some rest)
      | ',' :: cs => (items fuel cs).map (d :: ·) id
      | _ => ([d, .broken], none)

/-- Read one or more members up to the closing brace. A key that is no text is where the document
breaks off. -/
def members : Nat → List Char → Read (List (Doc × Doc))
  | 0, _ => ([(.broken, .broken)], none)
  | fuel + 1, cs =>
    match skipSpace cs with
    | '"' :: cs =>
      match pieces? cs with
      | none => ([(.broken, .broken)], none)
      | some (ps, cs) =>
        match skipSpace cs with
        | ':' :: cs =>
          match value fuel cs with
          | (d, none) => ([(textOf ps, d)], none)
          | (d, some cs) =>
            match skipSpace cs with
            | '\x7d' :: rest => ([(textOf ps, d)], some rest)
            | ',' :: cs => (members fuel cs).map ((textOf ps, d) :: ·) id
            | _ => ([(textOf ps, d), (.broken, .broken)], none)
        | _ => ([(textOf ps, .broken)], none)
    | cs => ([((value fuel cs).1, .broken)], none)

end

/-- Read a text as one value. The second part tells whether nothing but space follows it. -/
def read (text : String) : Doc × Bool :=
  let cs := text.toList
  match value (cs.length + 1) cs with
  | (d, none) => (d, false)
  | (d, some rest) => (d, (skipSpace rest).isEmpty)

end AtomLog.Json
