import AtomLog.Toml.Text
/-!
Dates and times of day in TOML documents.
-/
namespace AtomLog.Toml

structure Date where
  year : Nat
  month : Nat
  day : Nat
  deriving DecidableEq, Repr

structure Time where
  hour : Nat
  minute : Nat
  /-- Zero where it is left out. -/
  second : Nat
  nanosecond : Nat
  deriving DecidableEq, Repr

inductive Offset
  | utc
  | minutes (n : Int)
  deriving DecidableEq, Repr

structure Moment where
  date : Option Date
  time : Option Time
  offset : Option Offset
  deriving DecidableEq, Repr

def number (ds : List Char) : Nat := ds.foldl (fun n c => 10 * n + (c.toNat - '0'.toNat)) 0

/-- A number of exactly `n` digits. -/
def fixed (n : Nat) : Reader Nat := fun cs =>
  let ds := cs.takeWhile Char.isDigit
  if ds.length = n then some (number ds, cs.dropWhile Char.isDigit) else none

def sign (c : Char) : Reader Unit
  | d :: cs => if d == c then some ((), cs) else none
  | [] => none

namespace Date

def isLeap (year : Nat) : Bool := year % 4 = 0 ∧ (year % 100 ≠ 0 ∨ year % 400 = 0)

def monthDays (year month : Nat) : Nat :=
  if month = 2 then if isLeap year then 29 else 28
  else if month ∈ [4, 6, 9, 11] then 30 else 31

def read : Reader Date := fun cs => do
  let (y, cs) ← fixed 4 cs
  let (_, cs) ← sign '-' cs
  let (m, cs) ← fixed 2 cs
  let (_, cs) ← sign '-' cs
  let (d, cs) ← fixed 2 cs
  if 1 ≤ m ∧ m ≤ 12 ∧ 1 ≤ d ∧ d ≤ monthDays y m then some (⟨y, m, d⟩, cs) else none

end Date

namespace Time

/-- The digits behind the point of the seconds, of which nine count. -/
def nanoseconds (ds : List Char) : Nat := number ((ds ++ List.replicate 9 '0').take 9)

def readFraction : Reader Nat
  | '.' :: cs =>
    let ds := cs.takeWhile Char.isDigit
    if ds.isEmpty then none else some (nanoseconds ds, cs.dropWhile Char.isDigit)
  | cs => some (0, cs)

/-- The seconds and their fraction, which may be left out. -/
def readSeconds : Reader (Nat × Nat)
  | ':' :: cs => do
    let (s, cs) ← fixed 2 cs
    let (f, cs) ← readFraction cs
    some ((s, f), cs)
  | cs => some ((0, 0), cs)

def read : Reader Time := fun cs => do
  let (h, cs) ← fixed 2 cs
  let (_, cs) ← sign ':' cs
  let (m, cs) ← fixed 2 cs
  let ((s, f), cs) ← readSeconds cs
  if h ≤ 23 ∧ m ≤ 59 ∧ s ≤ 60 then some (⟨h, m, s, f⟩, cs) else none

end Time

namespace Offset

def readMinutes (factor : Int) : Reader (Option Offset) := fun cs => do
  let (h, cs) ← fixed 2 cs
  let (_, cs) ← sign ':' cs
  let (m, cs) ← fixed 2 cs
  if h ≤ 23 ∧ m ≤ 59 then some (some (.minutes (factor * (60 * h + m))), cs) else none

def read : Reader (Option Offset)
  | 'Z' :: cs | 'z' :: cs => some (some .utc, cs)
  | '+' :: cs => readMinutes 1 cs
  | '-' :: cs => readMinutes (-1) cs
  | cs => some (none, cs)

end Offset

namespace Moment

def readTimeOfDay (d : Date) (cs : List Char) : Option Moment := do
  let (t, cs) ← Time.read cs
  let (o, cs) ← Offset.read cs
  if cs.isEmpty then some ⟨some d, some t, o⟩ else none

/-- Read a date, a date with a time, or a time alone. -/
def ofChars? (cs : List Char) : Option Moment :=
  match Date.read cs with
  | some (d, []) => some ⟨some d, none, none⟩
  | some (d, c :: cs) => if c ∈ ['T', 't', ' '] then readTimeOfDay d cs else none
  | none =>
    match Time.read cs with
    | some (t, []) => some ⟨none, some t, none⟩
    | _ => none

end Moment

def padded (width n : Nat) : String :=
  let ds := Nat.toDigits 10 n
  String.ofList (List.replicate (width - ds.length) '0' ++ ds)

/-- A fraction of a second with a point, without the zeros at its end. -/
def fractionText (nanosecond : Nat) : String :=
  if nanosecond = 0 then ""
  else "." ++ String.ofList ((padded 9 nanosecond).toList.reverse.dropWhile (· == '0')).reverse

def Date.text (d : Date) : String := s!"{padded 4 d.year}-{padded 2 d.month}-{padded 2 d.day}"

def Time.text (t : Time) : String :=
  s!"{padded 2 t.hour}:{padded 2 t.minute}:{padded 2 t.second}{fractionText t.nanosecond}"

def Offset.text : Offset → String
  | .utc => "Z"
  | .minutes n =>
    let m := n.natAbs
    (if n < 0 then "-" else "+") ++ s!"{padded 2 (m / 60)}:{padded 2 (m % 60)}"

/-- A moment in its one written form. -/
def Moment.text (m : Moment) : String :=
  let offset := (m.offset.map Offset.text).getD ""
  match m.date, m.time with
  | some d, some t => s!"{d.text}T{t.text}{offset}"
  | some d, none => d.text
  | none, some t => t.text
  | none, none => ""

end AtomLog.Toml
