import AtomLog.Toml.Date
import AtomLog.Toml.Number
import AtomLog.Toml.Table
/-!
Values of TOML documents.
-/
namespace AtomLog.Toml

/-- How deep lists and inline tables may be nested. -/
def maxDepth : Nat := 80

/-- Skip space, line ends and comments. -/
def skipLines : List Char → List Char
  | [] => []
  | c :: cs =>
    if isSpace c || c == '\r' || c == '\n' then skipLines cs
    else if c == '#' then skipComment cs
    else c :: cs
where
  /-- Skip the rest of a line and what may be skipped after it. -/
  skipComment : List Char → List Char
    | [] => []
    | '\n' :: cs => skipLines cs
    | _ :: cs => skipComment cs

def isScalarChar (c : Char) : Bool := isBare c || c == '+' || c == '.' || c == ':'

/-- Whether a word may be a date before a space and a time. -/
def isDay (w : List Char) : Bool := w.length = 10 ∧ (Date.read w).isSome

/-- The characters of a value without quotes and brackets. -/
def scalarWord (cs : List Char) : List Char × List Char :=
  let w := cs.takeWhile isScalarChar
  let rest := cs.dropWhile isScalarChar
  match rest with
  | ' ' :: d :: ds =>
    if isDay w && d.isDigit then
      (w ++ ' ' :: (d :: ds).takeWhile isScalarChar, (d :: ds).dropWhile isScalarChar)
    else (w, rest)
  | _ => (w, rest)

def scalar? (w : List Char) : Option Doc :=
  if w == "true".toList then some (.bool true)
  else if w == "false".toList then some (.bool false)
  else
    match number? w with
    | some d => some d
    | none => (Moment.ofChars? w).map (fun m => .date m.text)

def scalar : Reader Doc := fun cs =>
  let (w, rest) := scalarWord cs
  (scalar? w).map (fun d => (d, rest))

mutual

/-- Read a value inside `depth` lists and inline tables. -/
def value : Nat → Nat → Reader Doc
  | 0, _, _ => none
  | fuel + 1, depth, cs =>
    match cs with
    | '[' :: cs =>
      if depth = maxDepth then none
      else (items fuel (depth + 1) (skipLines cs)).map (fun (ds, rest) => (.list ds, rest))
    | '{' :: cs =>
      if depth = maxDepth then none
      else do
        let (ms, rest) ← members fuel (depth + 1) [] (skipLines cs)
        some (.table (membersDoc ms), rest)
    | '"' :: _ | '\'' :: _ =>
      (quotedText cs).map (fun (t, rest) => (.str (String.ofList t), rest))
    | cs => scalar cs

/-- Read items up to the closing bracket. -/
def items : Nat → Nat → Reader (List Doc)
  | 0, _, _ => none
  | fuel + 1, depth, cs =>
    match cs with
    | ']' :: rest => some ([], rest)
    | cs => do
      let (d, cs) ← value fuel depth cs
      match skipLines cs with
      | ']' :: rest => some ([d], rest)
      | ',' :: cs => do
        let (ds, rest) ← items fuel depth (skipLines cs)
        some (d :: ds, rest)
      | _ => none

/-- Read pairs up to the closing brace and put them into a table. -/
def members : Nat → Nat → Members → Reader Members
  | 0, _, _, _ => none
  | fuel + 1, depth, ms, cs =>
    match cs with
    | '}' :: rest => some (ms, rest)
    | cs => do
      let (k, cs) ← key cs
      let (_, cs) ← sign '=' (skipLines cs)
      let (d, cs) ← value fuel depth (skipLines cs)
      let ms ← ms.put k.last d k.path
      match skipLines cs with
      | '}' :: rest => some (ms, rest)
      | ',' :: cs => members fuel depth ms (skipLines cs)
      | _ => none

end

end AtomLog.Toml
