import AtomLog.Text.Bytes
/-!
Texts without what a terminal takes for commands.
-/
namespace AtomLog.Text

/-- Where a text stands among the sequences that control a terminal. -/
inductive Place
  | outside
  /-- After an escape character. -/
  | escape
  /-- After an escape character and signs that do not end its sequence. -/
  | escapeSigns
  /-- In a control sequence. -/
  | sequence
  /-- In a command to the system, which a bell ends. -/
  | command
  /-- In a device control string, before its data. -/
  | deviceStart
  | deviceNumbers
  | deviceSigns
  /-- In data that is passed on. -/
  | data
  deriving DecidableEq, Repr

/-- The byte that ends data. -/
def terminator : UInt8 := 0x9c

def isSign (c : Char) : Bool := ' ' ≤ c && c ≤ '/'

def isNumberSign (c : Char) : Bool := '0' ≤ c && c ≤ '?'

def isFinal (c : Char) : Bool := '@' ≤ c && c ≤ '~'

namespace Place

/-- The place after an escape character and another one. -/
def afterEscape (c : Char) : Place :=
  match c with
  | '[' => .sequence
  | ']' => .command
  | 'P' => .deviceStart
  | 'X' | '^' | '_' => .data
  | c =>
    if isSign c then .escapeSigns
    else if isNumberSign c || isFinal c then .outside
    else .escape

/-- The place after a character that does not show. -/
def next (p : Place) (c : Char) : Place :=
  if c == '\x1b' then .escape
  else if c == '\x18' || c == '\x1a' then .outside
  else
    match p with
    | .outside => .outside
    | .escape => afterEscape c
    | .escapeSigns => if isNumberSign c || isFinal c then .outside else .escapeSigns
    | .sequence => if isFinal c then .outside else .sequence
    | .command => if c == '\x07' then .outside else .command
    | .deviceStart =>
      if isSign c then .deviceSigns
      else if isNumberSign c then .deviceNumbers
      else if isFinal c then .data
      else .deviceStart
    | .deviceNumbers =>
      if isSign c then .deviceSigns
      else if '<' ≤ c && c ≤ '~' then .data
      else .deviceNumbers
    | .deviceSigns => if isNumberSign c || isFinal c then .data else .deviceSigns
    | .data => if (bytes c.toString).contains terminator then .outside else .data

/-- Whether a character shows. A line end does so within most sequences too, but not within
strings. -/
def shows (p : Place) (c : Char) : Bool :=
  match p with
  | .outside => (' ' ≤ c && c ≠ '\x7f') || isBreak c
  | .escape | .escapeSigns | .sequence => isBreak c
  | _ => false
where
  isBreak (c : Char) : Bool := c == '\t' || c == '\n' || c == '\x0c' || c == '\r'

end Place

/-- The characters that show. From one that shows on, others show as they do outside of sequences, up
to one that does not; there a sequence goes on that a line end has broken. -/
def visible (showing : Bool) (p : Place) : List Char → List Char
  | [] => []
  | c :: cs =>
    if (if showing then Place.outside else p).shows c then
      c :: visible true (if c ≤ '\x7f' then p else .outside) cs
    else visible false (p.next c) cs

/-- A text without the sequences that control a terminal. -/
def withoutControl (s : String) : String := String.ofList (visible false .outside s.toList)

end AtomLog.Text
