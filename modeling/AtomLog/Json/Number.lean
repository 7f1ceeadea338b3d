import AtomLog.Bits
import AtomLog.Decimal.Shortest
import AtomLog.Document.Basic
/-!
Numbers of JSON texts.

A number without fraction and exponent is whole where 64 bits hold it. Any other is a binary
fraction, computed from the digits that fit 64 bits and one power of ten, so it is not always the
nearest one.
-/
namespace AtomLog.Json

open Decimal

/-- The decimal `significand * 10 ^ exponent` that the digits of a number add up to. -/
structure Decimals where
  significand : Nat
  exponent : Int

def digitValue (c : Char) : Nat := c.toNat - '0'.toNat

namespace Decimals

def fits (d : Decimals) (c : Char) : Bool := Bits.isUnsigned 64 (d.significand * 10 + digitValue c)

/-- Take in the digits before the point. What no longer fits counts as zeros. -/
def whole (d : Decimals) : List Char → Decimals
  | [] => d
  | c :: cs =>
    if d.fits c then whole ⟨d.significand * 10 + digitValue c, 0⟩ cs
    else ⟨d.significand, d.exponent + (c :: cs).length⟩

/-- Take in the digits after the point. What no longer fits is dropped. -/
def fraction (d : Decimals) : List Char → Decimals
  | [] => d
  | c :: cs =>
    if d.fits c then fraction ⟨d.significand * 10 + digitValue c, d.exponent - 1⟩ cs else d

end Decimals

/-- The binary fraction nearest to a power of ten, up to the 308th. -/
def powerOfTen (n : Nat) : Binary := Binary.ofNat (tens n)

/-- Divide by powers of ten as large as a binary fraction can be. -/
def divideByTens (b : Binary) (n : Nat) : Binary :=
  if h : n ≤ 308 then b.div (powerOfTen n)
  else if b.mantissa = 0 then b
  else divideByTens (b.div (powerOfTen 308)) (n - 308)
termination_by n

/-- The binary fraction of a decimal, or none where it is too large. -/
def Decimals.binary? (d : Decimals) : Option Binary :=
  let b := Binary.ofNat d.significand
  if d.exponent < 0 then some (divideByTens b (-d.exponent).toNat)
  else if d.exponent ≤ 308 then b.mul? (powerOfTen d.exponent.toNat)
  else if b.mantissa = 0 then some b
  else none

/-- The fewest digits that read back, positional for a point within five zeros and sixteen places. -/
def showBinary (negative : Bool) (b : Binary) : String :=
  let sign := if negative then "-" else ""
  if b.mantissa = 0 then sign ++ "0.0"
  else
    let d := shortest b
    sign ++ String.ofList (if -5 < d.point ∧ d.point ≤ 16 then d.positional else d.scientific)

/-- The parts of a number. -/
structure NumberText where
  negative : Bool
  whole : List Char
  fraction : Option (List Char)
  /-- The sign and the digits of the exponent. -/
  exponent : Option (Bool × List Char)

namespace NumberText

def decimals (t : NumberText) : Decimals :=
  let d := Decimals.whole ⟨0, 0⟩ t.whole
  match t.fraction with
  | none => d
  | some ds => d.fraction ds

def exponentValue (ds : List Char) : Nat := ds.foldl (fun n c => 10 * n + digitValue c) 0

/-- The decimal of a number. An exponent that 32 bits cannot hold makes it zero or too large. -/
def binary? (t : NumberText) : Option Binary :=
  let d := t.decimals
  match t.exponent with
  | none => d.binary?
  | some (negative, ds) =>
    let e := exponentValue ds
    if Bits.isSigned 32 e then
      Decimals.binary? ⟨d.significand, if negative then d.exponent - e else d.exponent + e⟩
    else if d.significand ≠ 0 ∧ !negative then none
    else some Binary.zero

/-- The whole number, where the text has neither fraction nor exponent and 64 bits hold it. -/
def int? (t : NumberText) : Option Int :=
  let d := t.decimals
  if t.fraction.isSome || t.exponent.isSome || d.exponent ≠ 0 then none
  else if !t.negative then some d.significand
  else if d.significand = 0 ∨ !Bits.isSigned 64 (-d.significand) then none
  else some (-d.significand)

def value (t : NumberText) : Doc :=
  match t.int? with
  | some n => .int n
  | none =>
    match t.binary? with
    | some b => .float (showBinary t.negative b)
    | none => .unreadable

end NumberText

/-- One or more digits and the rest. -/
def digits? (cs : List Char) : Option (List Char × List Char) :=
  let ds := cs.takeWhile Char.isDigit
  if ds.isEmpty then none else some (ds, cs.dropWhile Char.isDigit)

/-- The digits before the point: a zero, or a number that starts with none. -/
def whole? (cs : List Char) : Option (List Char × List Char) := do
  let (ds, rest) ← digits? cs
  if ds.length > 1 ∧ ds.head? = some '0' then none else some (ds, rest)

def fraction? : List Char → Option (Option (List Char) × List Char)
  | '.' :: cs => do
    let (ds, rest) ← digits? cs
    some (some ds, rest)
  | cs => some (none, cs)

def exponentDigits? (negative : Bool) (cs : List Char) :
    Option (Option (Bool × List Char) × List Char) := do
  let (ds, rest) ← digits? cs
  some (some (negative, ds), rest)

def exponent? : List Char → Option (Option (Bool × List Char) × List Char)
  | c :: cs =>
    if c == 'e' || c == 'E' then
      match cs with
      | '+' :: cs => exponentDigits? false cs
      | '-' :: cs => exponentDigits? true cs
      | cs => exponentDigits? false cs
    else some (none, c :: cs)
  | [] => some (none, [])

/-- Read a number and give the rest. -/
def number? (cs : List Char) : Option (Doc × List Char) := do
  let (negative, cs) := match cs with
    | '-' :: cs => (true, cs)
    | cs => (false, cs)
  let (ds, cs) ← whole? cs
  let (fraction, cs) ← fraction? cs
  let (exponent, cs) ← exponent? cs
  some (NumberText.value ⟨negative, ds, fraction, exponent⟩, cs)

end AtomLog.Json
