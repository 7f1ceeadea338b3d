import AtomLog.Bits
/-!
Messages on the wire: sequences of numbered values.

A group is a message between two tags, and every other message is a string of bytes.
-/
namespace AtomLog.Wire

abbrev Bytes := List UInt8

inductive Value
  | varint (n : Nat)
  | fixed64 (n : Nat)
  | bytes (bs : Bytes)
  | group (fields : List (Nat × Value))
  | fixed32 (n : Nat)

abbrev Fields := List (Nat × Value)

/-- How many levels of messages and groups there may be in one another. -/
def maxDepth : Nat := 100

/-- A number of up to `left` groups of seven bits, the lowest first, that fits 64 bits. -/
def varintFrom : Nat → Bytes → Option (Nat × Bytes)
  | 0, _ => none
  | _ + 1, [] => none
  | left + 1, b :: bs =>
    if b < 0x80 then
      if left = 0 ∧ 2 ≤ b then none else some (b.toNat, bs)
    else (varintFrom left bs).map (fun (n, rest) => (b.toNat - 0x80 + 0x80 * n, rest))

def varint (bs : Bytes) : Option (Nat × Bytes) := varintFrom 10 bs

/-- The number with these bytes, the lowest first. -/
def littleEndian (bs : Bytes) : Nat := bs.foldr (fun b n => b.toNat + 0x100 * n) 0

/-- The first `n` bytes, if there are that many. -/
def take (n : Nat) (bs : Bytes) : Option (Bytes × Bytes) :=
  let taken := bs.take n
  if taken.length = n then some (taken, bs.drop n) else none

def fixed (n : Nat) (bs : Bytes) : Option (Nat × Bytes) :=
  (take n bs).map (fun (taken, rest) => (littleEndian taken, rest))

/-- What a tag announces. -/
structure Tag where
  number : Nat
  form : Nat

def tag (bs : Bytes) : Option (Tag × Bytes) := do
  let (n, rest) ← varint bs
  if Bits.isUnsigned 32 n ∧ 0 < n / 8 then some (⟨n / 8, n % 8⟩, rest) else none

mutual

/-- Read the value of a tag. -/
def value : Nat → Tag → Bytes → Option (Value × Bytes)
  | 0, _, _ => none
  | fuel + 1, t, bs =>
    match t.form with
    | 0 => (varint bs).map (fun (n, rest) => (.varint n, rest))
    | 1 => (fixed 8 bs).map (fun (n, rest) => (.fixed64 n, rest))
    | 2 => do
      let (n, bs) ← varint bs
      let (taken, rest) ← take n bs
      some (.bytes taken, rest)
    | 3 => (groupFields fuel t.number bs).map (fun (fs, rest) => (.group fs, rest))
    | 5 => (fixed 4 bs).map (fun (n, rest) => (.fixed32 n, rest))
    | _ => none

/-- Read the values of a group up to its end. -/
def groupFields : Nat → Nat → Bytes → Option (Fields × Bytes)
  | 0, _, _ => none
  | fuel + 1, number, bs => do
    let (t, bs) ← tag bs
    if t.form = 4 then if t.number = number then some ([], bs) else none
    else
      let (v, bs) ← value fuel t bs
      let (fs, rest) ← groupFields fuel number bs
      some ((t.number, v) :: fs, rest)

end

def fieldsFrom : Nat → Bytes → Option Fields
  | 0, _ => none
  | _ + 1, [] => some []
  | fuel + 1, bs => do
    let (t, bs) ← tag bs
    let (v, bs) ← value fuel t bs
    let fs ← fieldsFrom fuel bs
    some ((t.number, v) :: fs)

/-- Read the values of a message. -/
def fields (bs : Bytes) : Option Fields := fieldsFrom (2 * bs.length + 2) bs

namespace Value

/-- Whether a value that is not known can be skipped at a place with this many levels left. It takes
a level of its own. -/
def canSkip : Nat → Value → Bool
  | 0, _ => false
  | depth + 1, .group fs => fs.all (fun (_, v) => v.canSkip depth)
  | _ + 1, _ => true

/-- Whether a value that is not known can be kept at a place with this many levels left. Only a
group takes a level. -/
def canKeep : Nat → Value → Bool
  | 0, .group _ => false
  | depth + 1, .group fs => fs.all (fun (_, v) => v.canKeep depth)
  | _, _ => true

end Value

end AtomLog.Wire
