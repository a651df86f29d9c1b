import RemoteCall.Wire.Reader

/-!
# Variable-length numbers

A number is written in groups of seven bits, least significant group first; every byte but the
last has its top bit set. Ten groups are the most a reader accepts, and the tenth may only carry
the top bit of a 64-bit word. Longer spellings of a small number are accepted, larger numbers are
not. Signed numbers are first folded onto the unsigned ones.
-/

namespace RemoteCall.Varint

/-- The shortest spelling of a number. -/
def encode (n : Nat) : List UInt8 :=
  if n < 128 then [n.toUInt8] else (n % 128 + 128).toUInt8 :: encode (n / 128)

/-- A small number is one byte. -/
theorem encode_of_lt {n : Nat} (h : n < 128) : encode n = [n.toUInt8] := by
  rw [encode, if_pos h]

/-- A number is at least one byte. -/
theorem encode_ne_nil (n : Nat) : encode n ≠ [] := by
  rw [encode]; split <;> simp

/-- Reads a number spelled in at most `groups` further bytes, the last of which is at most 1. -/
def readGroups : (groups : Nat) → Reader Nat
  | 0 => throw .malformedVarint
  | groups + 1 => do
    let b ← Reader.byte
    if groups = 0 ∧ 1 < b.toNat then throw .malformedVarint
    if b.toNat < 128 then return b.toNat
    let high ← readGroups groups
    return b.toNat % 128 + 128 * high

/-- An unsigned 64-bit number. -/
def read : Reader Nat := readGroups 10

/-- An unsigned number that fits 32 bits; a larger one is malformed. -/
def read32 : Reader Nat := do
  let n ← read
  if n < UInt32.size then return n else throw .malformedVarint

/-- The fold of the signed numbers onto the unsigned ones: 0, -1, 1, -2, 2, … -/
def fold (n : Int) : Nat :=
  if 0 ≤ n then 2 * n.toNat else 2 * (-n).toNat - 1

/-- The signed number that `fold` sends to this one. -/
def unfold (n : Nat) : Int :=
  if n % 2 = 0 then (n / 2 : Nat) else -((n / 2 : Nat) : Int) - 1

/-- A signed number is found behind its fold. -/
theorem unfold_fold (n : Int) : unfold (fold n) = n := by
  unfold unfold fold
  split <;> split <;> omega

/-- Every number is the fold of one. -/
theorem fold_unfold (n : Nat) : fold (unfold n) = n := by
  unfold unfold fold
  split <;> split <;> omega

/-- The spelling of a signed number. -/
def encodeSigned (n : Int) : List UInt8 := encode (fold n)

/-- A signed 64-bit number. -/
def readSigned : Reader Int := unfold <$> read

/-- A signed number that fits 32 bits; another one is malformed. -/
def readSigned32 : Reader Int := do
  let n ← readSigned
  if -2147483648 ≤ n ∧ n < 2147483648 then return n else throw .malformedVarint

end RemoteCall.Varint
