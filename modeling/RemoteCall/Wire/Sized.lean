import RemoteCall.Wire.Varint

/-!
# Sized parts of the input

Byte strings and texts carry their length in front. A declared count is refused at once when the
elements it announces, at their least size, could not fit into what is left.
-/

namespace RemoteCall.Sized

/-- A declared count of elements of at least `least` bytes each. -/
def readCount (least : Nat) : Reader Nat := do
  let size ← Varint.read
  let input ← get
  if size * max least 1 > input.length ∧ 0 < size then
    throw (.sizeOutOfBounds size input.length)
  return size

/-- The text that the bytes spell in UTF-8. -/
def textOf (bytes : List UInt8) : Except CodecError String :=
  match String.fromUTF8? bytes.toByteArray with
  | some text => .ok text
  | none => .error .invalidUtf8

/-- The bytes that spell a text in UTF-8. -/
def bytesOf (text : String) : List UInt8 := text.toUTF8.data.toList

/-- A byte string with its length in front. -/
def encodeBytes (bytes : List UInt8) : List UInt8 := Varint.encode bytes.length ++ bytes

/-- Reads a byte string with its length in front. -/
def readBytes : Reader (List UInt8) := do Reader.take (← readCount 1)

/-- A text with its length in bytes in front. -/
def encodeText (text : String) : List UInt8 := encodeBytes (bytesOf text)

/-- Reads a text with its length in bytes in front. -/
def readText : Reader String := do
  let bytes ← readBytes
  liftM (textOf bytes)

/-- A text that may be absent: zero, or the length plus one and the bytes. -/
def encodeOptionalText : Option String → List UInt8
  | none => Varint.encode 0
  | some text => Varint.encode ((bytesOf text).length + 1) ++ bytesOf text

/-- Reads a text that may be absent. Its length is not checked in advance. -/
def readOptionalText : Reader (Option String) := do
  let tag ← Varint.read
  if tag = 0 then return none
  let bytes ← Reader.take (tag - 1)
  return some (← liftM (textOf bytes))

end RemoteCall.Sized
