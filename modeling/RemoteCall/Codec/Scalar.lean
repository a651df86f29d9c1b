import RemoteCall.Wire.Sized
import RemoteCall.Value.Scalar

/-!
# Scalars on the wire

Each scalar type has one way of writing its values: fixed width for bytes, shorts and
floating-point numbers, variable-length numbers for the rest, a length in front of bytes and texts.
Reading refuses what no value of the type would write.
-/

namespace RemoteCall.Scalar

/-- The bytes of a scalar, without its class. -/
def encode : Scalar → List UInt8
  | bool v => [if v then 1 else 0]
  | byte v => [v.toUInt8]
  | short v => bigEndianBytes 2 v.toUInt16.toNat
  | int v => Varint.encodeSigned v.toInt
  | long v => Varint.encodeSigned v.toInt
  | float bits => bigEndianBytes 4 bits.toNat
  | double bits => bigEndianBytes 8 bits.toNat
  | char v => Varint.encode v.toNat
  | string v => Sized.encodeText v
  | bigInteger v => Sized.encodeBytes v.bytes
  | bigDecimal v => Varint.encodeSigned v.scale.toInt ++ Sized.encodeBytes v.unscaled.bytes
  | uuid v => v.bytes
  | date v => Varint.encodeSigned v.days
  | time v => Varint.encode v.seconds ++ Varint.encode v.nanos
  | dateTime v =>
    Varint.encodeSigned v.date.days ++ Varint.encode v.time.seconds ++ Varint.encode v.time.nanos
  | instant v => Varint.encodeSigned v.unixSeconds ++ Varint.encode v.nanos
  | duration v => Varint.encodeSigned v.seconds ++ Varint.encodeSigned v.nanos
  | charset v => Sized.encodeText v.name
  | bytes v => Sized.encodeBytes v

/-- Accepts the value that was found, or refuses the reading it stands for. -/
def demand (subject : Subject) (reading : String) : Option α → Reader α
  | some a => return a
  | none => throw (.invalidValue subject reading)

/-- Seconds and nanoseconds in a refusal. -/
def secondsText (seconds nanos : Int) : String := s!"{seconds}s {nanos}ns"

/-- A truth value: zero or one. -/
def readBool : Reader Bool := do
  let b ← Reader.byte
  if b = 0 then return false
  else if b = 1 then return true
  else throw (.invalidValue .bool (toString b.toNat))

/-- A character by its code point, which must not be half of a surrogate pair. -/
def readChar : Reader Char := do
  let code ← Varint.read32
  if code.isValidChar then return Char.ofNat code else throw (.invalidValue .char (toString code))

/-- An integer of any size; redundant sign bytes are dropped. -/
def readBigInteger : Reader BigInteger := BigInteger.ofBytes <$> Sized.readBytes

/-- A date inside the calendar. -/
def readDate : Reader Date := do
  let days ← Varint.readSigned32
  demand .date (toString days) (Date.ofDays? days)

/-- A time of day. -/
def readTime : Reader Time := do
  let seconds ← Varint.read32
  let nanos ← Varint.read32
  demand .time (secondsText seconds nanos) (Time.ofParts? seconds nanos)

/-- An instant inside the calendar. -/
def readInstant : Reader Instant := do
  let seconds ← Varint.readSigned
  let nanos ← Varint.read32
  demand .instant (secondsText seconds nanos) (Instant.ofUnix? seconds nanos)

/-- A duration that is not too long. -/
def readDuration : Reader Duration := do
  let seconds ← Varint.readSigned
  let nanos ← Varint.readSigned32
  demand .duration (secondsText seconds nanos) (Duration.ofParts? seconds nanos)

/-- Sixteen bytes. -/
def readUuid : Reader Uuid := do
  let bytes ← Reader.take 16
  if h : bytes.length = 16 then return ⟨bytes, h⟩ else throw (.unexpectedEnd (16 - bytes.length))

/-- A scalar of a type. -/
def read : ScalarType → Reader Scalar
  | .bool => .bool <$> readBool
  | .byte => (.byte ·.toInt8) <$> Reader.byte
  | .short => (.short ·.toUInt16.toInt16) <$> Reader.bigEndian 2
  | .int => (.int <| Int32.ofInt ·) <$> Varint.readSigned32
  | .long => (.long <| Int64.ofInt ·) <$> Varint.readSigned
  | .float => (.float ·.toUInt32) <$> Reader.bigEndian 4
  | .double => (.double ·.toUInt64) <$> Reader.bigEndian 8
  | .char => .char <$> readChar
  | .string => .string <$> Sized.readText
  | .bigInteger => .bigInteger <$> readBigInteger
  | .bigDecimal => do
    let scale ← Varint.readSigned32
    let unscaled ← readBigInteger
    return .bigDecimal ⟨unscaled, Int32.ofInt scale⟩
  | .uuid => .uuid <$> readUuid
  | .date => .date <$> readDate
  | .time => .time <$> readTime
  | .dateTime => do
    let date ← readDate
    let time ← readTime
    return .dateTime ⟨date, time⟩
  | .instant => .instant <$> readInstant
  | .duration => .duration <$> readDuration
  | .charset => do
    let name ← Sized.readText
    return .charset (← liftM (Charset.ofName name))
  | .bytes => .bytes <$> Sized.readBytes

end RemoteCall.Scalar
