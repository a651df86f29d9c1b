import RemoteCall.Wire.Reader

/-!
# Integers of any size

An integer is held as its two's-complement bytes, most significant first, without redundant sign
bytes. `BigInteger.ofBytes` drops those, `BigInteger.toInt` is the number meant, and the order is
read off sign, length and bytes. Numbers of up to sixteen bytes are shown in decimal, longer ones
as the hexadecimal digits of their bytes.
-/

namespace RemoteCall

/-- Two's-complement bytes of which the first is needed: dropping it would change the number. -/
def MinimalBytes : List UInt8 → Prop
  | [] => False
  | [_] => True
  | a :: b :: _ => ¬(a = 0 ∧ b < 128) ∧ ¬(a = 255 ∧ 128 ≤ b)

instance : DecidablePred MinimalBytes
  | [] => .isFalse id
  | [_] => .isTrue trivial
  | a :: b :: _ => inferInstanceAs (Decidable (¬(a = 0 ∧ b < 128) ∧ ¬(a = 255 ∧ 128 ≤ b)))

/-- The bytes without redundant sign bytes; no bytes stand for zero. -/
def dropSignBytes : List UInt8 → List UInt8
  | [] => [0]
  | [a] => [a]
  | a :: b :: rest =>
    if (a = 0 ∧ b < 128) ∨ (a = 255 ∧ 128 ≤ b) then dropSignBytes (b :: rest) else a :: b :: rest

/-- What is left without needless sign bytes is minimal. -/
theorem minimalBytes_dropSignBytes : (bytes : List UInt8) → MinimalBytes (dropSignBytes bytes)
  | [] => trivial
  | [_] => trivial
  | a :: b :: rest => by
    rw [dropSignBytes]
    split
    · exact minimalBytes_dropSignBytes (b :: rest)
    · rename_i h
      exact not_or.mp h

/-- Minimal bytes have no needless sign byte. -/
theorem dropSignBytes_eq_self {bytes : List UInt8} (h : MinimalBytes bytes) :
    dropSignBytes bytes = bytes := by
  match bytes, h with
  | [_], _ => rfl
  | a :: b :: rest, h => rw [dropSignBytes, if_neg (not_or.mpr h)]

/-- An integer of any size. -/
structure BigInteger where
  /-- The two's-complement bytes, most significant first. -/
  bytes : List UInt8
  /-- No leading byte is redundant. -/
  minimal : MinimalBytes bytes
  deriving DecidableEq

namespace BigInteger

/-- The integer that two's-complement bytes denote; they may be redundant or absent. -/
def ofBytes (bytes : List UInt8) : BigInteger :=
  ⟨dropSignBytes bytes, minimalBytes_dropSignBytes bytes⟩

/-- A big integer is read back from its bytes. -/
theorem ofBytes_bytes (n : BigInteger) : ofBytes n.bytes = n := by
  cases n with
  | mk bytes minimal => simp only [ofBytes, dropSignBytes_eq_self minimal]

/-- The integer that is negative exactly when its first byte has the top bit set. -/
def isNegative (n : BigInteger) : Bool :=
  match n.bytes with
  | [] => false
  | b :: _ => 128 ≤ b

/-- The integer that bytes denote in two's complement, most significant first: the first byte
counts with its sign, the others without. No bytes denote zero. -/
def twosComplement : List UInt8 → Int
  | [] => 0
  | b :: rest => rest.foldl (fun value c => value * 256 + c.toNat) b.toInt8.toInt

/-- The number meant. -/
def toInt (n : BigInteger) : Int := twosComplement n.bytes

/-- The low `width` bytes of an integer in two's complement. -/
def wordBytes : (width : Nat) → Int → List UInt8
  | 0, _ => []
  | width + 1, n => wordBytes width (n / 256) ++ [(n % 256).toNat.toUInt8]

/-- A number as an integer of any size. -/
def ofInt (n : Int) : BigInteger := ofBytes (wordBytes (n.natAbs.log2 / 8 + 2) n)

/-- The number, if it fits sixteen bytes. -/
def toInt128? (n : BigInteger) : Option Int :=
  if n.bytes.length ≤ 16 then some n.toInt else none

/-- The order of the numbers. Of two minimal forms of one sign the longer has the larger magnitude,
and forms of one length order by their bytes. -/
def compare (a b : BigInteger) : Ordering :=
  match a.isNegative, b.isNegative with
  | true, false => .lt
  | false, true => .gt
  | false, false =>
    (Ord.compare a.bytes.length b.bytes.length).then (List.compareLex Ord.compare a.bytes b.bytes)
  | true, true =>
    (Ord.compare b.bytes.length a.bytes.length).then (List.compareLex Ord.compare a.bytes b.bytes)

/-- A byte as two lower-case hexadecimal digits. -/
def hexByte (b : UInt8) : List Char := [Nat.digitChar (b.toNat / 16), Nat.digitChar (b.toNat % 16)]

/-- Bytes as lower-case hexadecimal digits. -/
def hexText (bytes : List UInt8) : String := String.ofList (bytes.flatMap hexByte)

/-- Decimal where the number fits sixteen bytes, else its bytes in hexadecimal. -/
def text (n : BigInteger) : String :=
  match n.toInt128? with
  | some value => toString value
  | none => "0x" ++ hexText n.bytes

end BigInteger

end RemoteCall
