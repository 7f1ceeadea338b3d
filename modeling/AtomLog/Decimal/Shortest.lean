import AtomLog.Decimal.Binary
/-!
The shortest decimal that reads back as a binary fraction.

The decimals that read back lie in the interval half way to the two neighbours, ends included where
the mantissa is even. On the coarsest decimal grid with a point in the interval, the point nearest
to the number is taken.
-/
namespace AtomLog.Decimal

/-- The decimal `0.d₁d₂… * 10 ^ point`. -/
structure Digits where
  digits : List Char
  point : Int
  deriving DecidableEq, Repr, Inhabited

/-- `10 ^ e ≤ num / den`, for numbers above zero. -/
def powLe (e : Int) (num den : Nat) : Bool :=
  if e ≥ 0 then tens e.toNat * den ≤ num else den ≤ num * tens (-e).toNat

/-- The exponent of the leading digit of a quotient. -/
def leadingExponent (num den : Nat) : Int :=
  let guess : Int := (Nat.toDigits 10 num).length - (Nat.toDigits 10 den).length
  if powLe guess num den then guess else guess - 1

/-- The interval of what reads back: its ends and the number over one denominator, and whether the
ends belong to it. -/
structure Interval where
  low : Nat
  value : Nat
  high : Nat
  den : Nat
  closed : Bool

def Interval.of (b : Binary) : Interval :=
  let (num, den) := b.quotient
  let ulp := if b.exponent ≥ 0 then Bits.values b.exponent.toNat else 1
  let below := if b.mantissa = Bits.values 52 ∧ b.exponent ≠ Binary.minExponent then ulp else 2 * ulp
  ⟨4 * num - below, 4 * num, 4 * num + 2 * ulp, 4 * den, b.mantissa % 2 = 0⟩

/-- Whether `c * 10 ^ k` lies in the interval. -/
def Interval.contains (i : Interval) (c : Nat) (k : Int) : Bool :=
  let (p, q) := if k ≥ 0 then (tens k.toNat, 1) else (1, tens (-k).toNat)
  let x := c * p * i.den
  if i.closed then i.low * q ≤ x && x ≤ i.high * q else i.low * q < x && x < i.high * q

/-- The point of the grid of `10 ^ k` in the interval that is nearest to its number. -/
def Interval.nearest? (i : Interval) (k : Int) : Option Nat :=
  let (p, q) := if k ≥ 0 then (tens k.toNat, 1) else (1, tens (-k).toNat)
  let num := i.value * q
  let den := i.den * p
  let c := num / den
  let up := c + 1
  match i.contains c k, i.contains up k with
  | false, false => none
  | true, false => some c
  | false, true => some up
  | true, true => some (Binary.roundDiv num den)

/-- The digits of a binary fraction above zero. -/
def shortest (b : Binary) : Digits :=
  let i := Interval.of b
  let lead := leadingExponent i.value i.den
  let found := (List.range 17).findSome? (fun (n : Nat) =>
    let k : Int := lead - n
    (i.nearest? k).map (fun c => (c, k)))
  match found with
  | none => ⟨['0'], 1⟩
  | some (c, k) =>
    let ds := Nat.toDigits 10 c
    ⟨(ds.reverse.dropWhile (· == '0')).reverse, ds.length + k⟩

def zeros (n : Nat) : List Char := List.replicate n '0'

/-- The decimal with all its places and at least one behind the point. -/
def Digits.positional (d : Digits) : List Char :=
  if d.point ≤ 0 then '0' :: '.' :: zeros (-d.point).toNat ++ d.digits
  else
    let n := d.point.toNat
    if d.digits.length ≤ n then d.digits ++ zeros (n - d.digits.length) ++ ['.', '0']
    else d.digits.take n ++ '.' :: d.digits.drop n

/-- The decimal with one digit before the point and the power of ten with its sign. -/
def Digits.scientific (d : Digits) : List Char :=
  match d.digits with
  | [] => []
  | c :: cs =>
    let sign := if 1 ≤ d.point then '+' else '-'
    (c :: if cs.isEmpty then [] else '.' :: cs) ++
      'e' :: sign :: (toString (d.point - 1).natAbs).toList

end AtomLog.Decimal
