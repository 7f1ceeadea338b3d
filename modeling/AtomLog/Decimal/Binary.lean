import AtomLog.Bits
/-!
Binary fractions of double precision, by exact arithmetic on natural numbers.
-/
namespace AtomLog.Decimal

/-- The powers of ten. -/
def tens (n : Nat) : Nat := Nat.pow 10 n

/-- The number `mantissa * 2 ^ exponent`, with a mantissa below `2 ^ 53`. -/
structure Binary where
  mantissa : Nat
  exponent : Int
  deriving DecidableEq, Repr, Inhabited

namespace Binary

/-- The least exponent, under which the numbers near zero are evenly spaced. -/
def minExponent : Int := -1074

def maxExponent : Int := 971

def zero : Binary := ⟨0, minExponent⟩

/-- The quotient of two numbers to the nearest whole one, a half to the even neighbour. -/
def roundDiv (num den : Nat) : Nat :=
  let q := num / den
  let r := num % den
  if 2 * r < den then q
  else if 2 * r > den then q + 1
  else if q % 2 = 0 then q else q + 1

/-- `num / den * 2 ^ (-e)` as a quotient. -/
def scale (num den : Nat) (e : Int) : Nat × Nat :=
  if e ≥ 0 then (num, den * Bits.values e.toNat) else (num * Bits.values (-e).toNat, den)

/-- The binary fraction nearest to a quotient, or none where it is too large. -/
def ofQuotient? (num den : Nat) : Option Binary :=
  if num = 0 then some zero
  else
    let guess : Int := (num.log2 : Int) - den.log2 - 52
    let (n, d) := scale num den guess
    let e := if n / d < Bits.values 52 then guess - 1 else if Bits.values 53 ≤ n / d then guess + 1 else guess
    let e := max e minExponent
    let (n, d) := scale num den e
    let m := roundDiv n d
    let (m, e) := if m = Bits.values 53 then (Bits.values 52, e + 1) else (m, e)
    if maxExponent < e then none else some ⟨m, e⟩

/-- The number as a quotient of natural numbers. -/
def quotient (b : Binary) : Nat × Nat :=
  if b.exponent ≥ 0 then (b.mantissa * Bits.values b.exponent.toNat, 1)
  else (b.mantissa, Bits.values (-b.exponent).toNat)

def ofNat (n : Nat) : Binary := (ofQuotient? n 1).getD zero

/-- The rounded product, or none where it is too large. -/
def mul? (a b : Binary) : Option Binary :=
  let (n, d) := a.quotient
  let (m, e) := b.quotient
  ofQuotient? (n * m) (d * e)

/-- The rounded quotient by a number other than zero. -/
def div (a b : Binary) : Binary :=
  let (n, d) := a.quotient
  let (m, e) := b.quotient
  (ofQuotient? (n * e) (d * m)).getD zero

/-- The binary fraction nearest to `digits * 10 ^ exponent`, or none where it is too large. -/
def ofDecimal? (digits : Nat) (exponent : Int) : Option Binary :=
  if digits = 0 then some zero
  else if 400 < exponent then none
  else if exponent < -400 - (Nat.toDigits 10 digits).length then some zero
  else if exponent ≥ 0 then ofQuotient? (digits * tens exponent.toNat) 1
  else ofQuotient? digits (tens (-exponent).toNat)

end Binary

end AtomLog.Decimal
