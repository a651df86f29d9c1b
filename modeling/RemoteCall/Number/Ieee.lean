/-!
# Binary floating-point numbers by their bits

A floating-point number is the unsigned word of its bits: sign, exponent, fraction. Equality and
order are stated on that word, so a number that is not a number keeps its payload. `Ieee.equal`
and `Ieee.compare?` are the comparisons of numbers (the two zeros are equal, what is not a number
equals nothing); `Ieee.totalCompare` orders all words.
-/

namespace RemoteCall

/-- The widths of the exponent and of the fraction of a binary format. -/
structure Ieee where
  exponentBits : Nat
  fractionBits : Nat

namespace Ieee

/-- The 32-bit format. -/
def single : Ieee := ⟨8, 23⟩

/-- The 64-bit format. -/
def double : Ieee := ⟨11, 52⟩

/-- The word without its sign. -/
def magnitude (f : Ieee) (bits : Nat) : Nat := bits % (1 <<< (f.exponentBits + f.fractionBits))

/-- Whether the sign bit is set. -/
def isNegative (f : Ieee) (bits : Nat) : Bool := bits.testBit (f.exponentBits + f.fractionBits)

/-- The word of positive infinity, above every word of a finite number. -/
def infinity (f : Ieee) : Nat := ((1 <<< f.exponentBits) - 1) <<< f.fractionBits

/-- Whether the word is not a number. -/
def isNaN (f : Ieee) (bits : Nat) : Bool := f.infinity < f.magnitude bits

/-- An integer in the order of the numbers; the two zeros share one. -/
def key (f : Ieee) (bits : Nat) : Int :=
  if f.isNegative bits then -(f.magnitude bits : Int) else f.magnitude bits

/-- Equality of numbers. -/
def equal (f : Ieee) (a b : Nat) : Bool :=
  !f.isNaN a && !f.isNaN b && f.key a == f.key b

/-- The order of numbers; what is not a number has none. -/
def compare? (f : Ieee) (a b : Nat) : Option Ordering :=
  if f.isNaN a || f.isNaN b then none else some (Ord.compare (f.key a) (f.key b))

/-- An integer in the total order of the words: negative before positive, and among the negative
ones the larger magnitude first. -/
def totalKey (f : Ieee) (bits : Nat) : Int :=
  if f.isNegative bits then -(f.magnitude bits : Int) - 1 else f.magnitude bits

/-- The total order of the words. -/
def totalCompare (f : Ieee) (a b : Nat) : Ordering := Ord.compare (f.totalKey a) (f.totalKey b)

example : double.equal 0 0x8000000000000000 = true := by decide
example : double.totalCompare 0x8000000000000000 0 = .lt := by decide

end Ieee

end RemoteCall
