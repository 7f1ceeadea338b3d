import AtomLog.Bits
import AtomLog.Decimal.Shortest
import AtomLog.Document.Basic
import AtomLog.Toml.Text
/-!
Numbers of TOML documents. An underscore may stand between two digits.
-/
namespace AtomLog.Toml

open Decimal

/-- Digits of a kind with single underscores between them, which are left out. -/
def grouped? (isDigit : Char → Bool) : List Char → Option (List Char)
  | [] => none
  | [c] => if isDigit c then some [c] else none
  | c :: '_' :: cs => if isDigit c then (grouped? isDigit cs).map (c :: ·) else none
  | c :: cs => if isDigit c then (grouped? isDigit cs).map (c :: ·) else none

def hexDigitValue (c : Char) : Nat := (hexValue? c).getD 0

def valueOf (base : Nat) (ds : List Char) : Nat :=
  ds.foldl (fun n c => base * n + hexDigitValue c) 0

/-- Decimal digits that do not start with a zero, except for zero itself. -/
def decimal? (cs : List Char) : Option (List Char) := do
  let ds ← grouped? Char.isDigit cs
  if ds.length > 1 ∧ ds.head? = some '0' then none else some ds

/-- A whole number. One that 128 bits do not hold cannot be skipped either. -/
def intDoc (n : Int) : Doc := if Bits.fits 128 n then .int n else .broken

/-- A binary fraction in a message: all its digits, with a point. -/
def floatText (b : Binary) : String :=
  if b.mantissa = 0 then "0.0" else String.ofList (shortest b).positional

def signed (negative : Bool) (text : String) : String := if negative then "-" ++ text else text

/-- The part of a float behind its digits before the point. -/
structure Tail where
  fraction : List Char
  exponent : Int

def exponent? : List Char → Option Int
  | '+' :: cs => (grouped? Char.isDigit cs).map (fun ds => valueOf 10 ds)
  | '-' :: cs => (grouped? Char.isDigit cs).map (fun ds => -(valueOf 10 ds : Int))
  | cs => (grouped? Char.isDigit cs).map (fun ds => valueOf 10 ds)

def isExponentSign (c : Char) : Bool := c == 'e' || c == 'E'

def tail? : List Char → Option Tail
  | '.' :: cs => do
    let fraction ← grouped? Char.isDigit (cs.takeWhile (!isExponentSign ·))
    match cs.dropWhile (!isExponentSign ·) with
    | [] => some ⟨fraction, 0⟩
    | _ :: cs => some ⟨fraction, ← exponent? cs⟩
  | c :: cs => do
    if isExponentSign c then some ⟨[], ← exponent? cs⟩ else none
  | [] => none

/-- A float; one that is too large cannot be skipped either. -/
def floatDoc (negative : Bool) (whole : List Char) (t : Tail) : Doc :=
  match Binary.ofDecimal? (valueOf 10 (whole ++ t.fraction)) (t.exponent - t.fraction.length) with
  | some b => .float (signed negative (floatText b))
  | none => .broken

/-- A number without its sign. -/
def unsigned? (negative : Bool) (cs : List Char) : Option Doc :=
  let isPart (c : Char) : Bool := c.isDigit || c == '_'
  match decimal? (cs.takeWhile isPart), cs.dropWhile isPart with
  | none, _ => none
  | some ds, [] =>
    let n : Int := valueOf 10 ds
    some (intDoc (if negative then -n else n))
  | some ds, cs => (tail? cs).map (floatDoc negative ds)

def radix? (base : Nat) (cs : List Char) : Option Doc :=
  let isDigit (c : Char) : Bool :=
    match hexValue? c with
    | some n => n < base
    | none => false
  (grouped? isDigit cs).map (fun ds => intDoc (valueOf base ds))

def infinite? (negative : Bool) (cs : List Char) : Option Doc :=
  if cs == "inf".toList then some (.float (signed negative "inf"))
  else if cs == "nan".toList then some (.float "NaN")
  else none

def number? : List Char → Option Doc
  | '0' :: 'x' :: cs => radix? 16 cs
  | '0' :: 'o' :: cs => radix? 8 cs
  | '0' :: 'b' :: cs => radix? 2 cs
  | '+' :: cs => (infinite? false cs).or (unsigned? false cs)
  | '-' :: cs => (infinite? true cs).or (unsigned? true cs)
  | cs => (infinite? false cs).or (unsigned? false cs)

end AtomLog.Toml
