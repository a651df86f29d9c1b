import RemoteCall.CodecError

/-!
# Reading from a finite input

A reader takes what it needs from the front of a byte list and leaves the rest; it never looks
behind and never skips. Counts that the input declares are checked against what is left before
anything is read, so no declared size can make a reader run past its input.
-/

namespace RemoteCall

/-- A step that consumes a front part of the input or fails. -/
abbrev Reader := StateT (List UInt8) (Except CodecError)

namespace Reader

/-- One byte. -/
def byte : Reader UInt8
  | [] => .error (.unexpectedEnd 1)
  | b :: rest => .ok (b, rest)

/-- Exactly `count` bytes, or the number of missing ones as the error. -/
def take (count : Nat) : Reader (List UInt8) := fun input =>
  let taken := input.take count
  if taken.length = count then .ok (taken, input.drop count)
  else .error (.unexpectedEnd (count - taken.length))

/-- Bytes are read back from before any rest. -/
theorem take_append (bytes rest : List UInt8) :
    take bytes.length (bytes ++ rest) = .ok (bytes, rest) := by
  simp [take]

end Reader

/-- The unsigned number that bytes spell, most significant byte first. -/
def ofBigEndian (bytes : List UInt8) : Nat :=
  bytes.foldl (fun value b => value * 256 + b.toNat) 0

/-- An unsigned number of `width` bytes. -/
def Reader.bigEndian (width : Nat) : Reader Nat := ofBigEndian <$> Reader.take width

/-- The `width` low bytes of a number, most significant byte first. -/
def bigEndianBytes : (width value : Nat) → List UInt8
  | 0, _ => []
  | width + 1, value => bigEndianBytes width (value / 256) ++ [value.toUInt8]

/-- A number is spelled with its width. -/
theorem length_bigEndianBytes (width value : Nat) :
    (bigEndianBytes width value).length = width := by
  induction width generalizing value with
  | zero => rfl
  | succ width ih => simp [bigEndianBytes, ih]

end RemoteCall
