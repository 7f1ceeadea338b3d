/-!
Whole numbers of a limited number of bits.
-/
namespace AtomLog.Bits

/-- How many values so many bits have. -/
def values (bits : Nat) : Nat := Nat.pow 2 bits

/-- Whether a number is one of so many bits with sign: half of the values are below zero. -/
def isSigned (bits : Nat) (n : Int) : Bool := -(values (bits - 1)) ≤ n && n < values (bits - 1)

/-- Whether a number is one of so many bits without sign. -/
def isUnsigned (bits : Nat) (n : Int) : Bool := 0 ≤ n && n < values bits

/-- Whether so many bits hold a number, with sign or without. -/
def fits (bits : Nat) (n : Int) : Bool := isSigned bits n || isUnsigned bits n

/-- The number with sign that the lowest bits of another one give. -/
def signed (bits n : Nat) : Int := Int.bmod n (values bits)

end AtomLog.Bits
