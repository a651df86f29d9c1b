import RemoteCall.Typing.TypeRef
import RemoteCall.Number.BigDecimal
import RemoteCall.Number.Shortest
import RemoteCall.Calendar.DateTime
import RemoteCall.Calendar.Duration

/-!
# Scalars

Values without parts: numbers, characters, texts, calendar values, byte strings. Floating-point
numbers are held by their bits, so two scalars are the same datum exactly when they are equal as
terms, while `Scalar.same` is the equality of numbers, under which nothing equals what is not a
number.
-/

namespace RemoteCall

/-- A universally unique identifier. -/
structure Uuid where
  bytes : List UInt8
  length_eq : bytes.length = 16
  deriving DecidableEq

namespace Uuid

/-- Thirty-two hexadecimal digits in groups of eight, four, four, four and twelve. -/
def text (u : Uuid) : String :=
  let digits := u.bytes.flatMap BigInteger.hexByte
  let group (start count : Nat) : List Char := (digits.drop start).take count
  String.ofList
    (['-'].intercalate [group 0 8, group 8 4, group 12 4, group 16 4, group 20 12])

end Uuid

/-- The letters, digits and few marks of ASCII of which the name of a character set consists. -/
def isCharsetMark (c : Char) : Bool := c.isAlphanum || ['-', '+', '.', ':', '_'].contains c

/-- At least one mark, and nothing but marks. -/
def ValidCharsetName (name : String) : Prop := name ≠ "" ∧ name.toList.all isCharsetMark

instance (name : String) : Decidable (ValidCharsetName name) :=
  inferInstanceAs (Decidable (_ ∧ _))

/-- A character set, known by its canonical name. -/
structure Charset where
  name : String
  valid : ValidCharsetName name
  deriving DecidableEq

namespace Charset

/-- The character set of a name, if the name is well formed. -/
def ofName (name : String) : Except CodecError Charset :=
  if h : ValidCharsetName name then .ok ⟨name, h⟩ else .error (.invalidValue .charsetName name)

/-- A character set is found by its name. -/
theorem ofName_name (c : Charset) : ofName c.name = .ok c := dif_pos c.valid

/-- The character set that all texts on the wire use. -/
def utf8 : Charset := ⟨"UTF-8", by decide⟩

end Charset

/-- A value without parts. -/
inductive Scalar
  | bool (v : Bool)
  | byte (v : Int8)
  | short (v : Int16)
  | int (v : Int32)
  | long (v : Int64)
  /-- The bits of a 32-bit floating-point number. -/
  | float (bits : UInt32)
  /-- The bits of a 64-bit floating-point number. -/
  | double (bits : UInt64)
  | char (v : Char)
  | string (v : String)
  | bigInteger (v : BigInteger)
  | bigDecimal (v : BigDecimal)
  | uuid (v : Uuid)
  | date (v : Date)
  | time (v : Time)
  | dateTime (v : DateTime)
  | instant (v : Instant)
  | duration (v : Duration)
  | charset (v : Charset)
  | bytes (v : List UInt8)
  deriving DecidableEq

namespace Scalar

/-- The type of a scalar. -/
def type : Scalar → ScalarType
  | bool _ => .bool
  | byte _ => .byte
  | short _ => .short
  | int _ => .int
  | long _ => .long
  | float _ => .float
  | double _ => .double
  | char _ => .char
  | string _ => .string
  | bigInteger _ => .bigInteger
  | bigDecimal _ => .bigDecimal
  | uuid _ => .uuid
  | date _ => .date
  | time _ => .time
  | dateTime _ => .dateTime
  | instant _ => .instant
  | duration _ => .duration
  | charset _ => .charset
  | bytes _ => .bytes

/-- Equality of scalars of one type; floating-point numbers are compared as numbers. -/
def same : Scalar → Scalar → Bool
  | float a, float b => Ieee.single.equal a.toNat b.toNat
  | double a, double b => Ieee.double.equal a.toNat b.toNat
  | a, b => a == b

/-- The order of texts: by the bytes that spell them. -/
def compareText (a b : String) : Ordering :=
  List.compareLex Ord.compare a.toUTF8.data.toList b.toUTF8.data.toList

/-- The natural order of two scalars of one type. -/
def compare? : Scalar → Scalar → Option Ordering
  | bool a, bool b => some (Ord.compare a b)
  | byte a, byte b => some (Ord.compare a.toInt b.toInt)
  | short a, short b => some (Ord.compare a.toInt b.toInt)
  | int a, int b => some (Ord.compare a.toInt b.toInt)
  | long a, long b => some (Ord.compare a.toInt b.toInt)
  | float a, float b => Ieee.single.compare? a.toNat b.toNat
  | double a, double b => Ieee.double.compare? a.toNat b.toNat
  | char a, char b => some (Ord.compare a.toNat b.toNat)
  | string a, string b => some (compareText a b)
  | bigInteger a, bigInteger b => some (a.compare b)
  | bigDecimal a, bigDecimal b => a.compare? b
  | uuid a, uuid b => some (List.compareLex Ord.compare a.bytes b.bytes)
  | date a, date b => some (Ord.compare a.days b.days)
  | time a, time b => some (a.compare b)
  | dateTime a, dateTime b => some (a.compare b)
  | instant a, instant b => some (a.utc.compare b.utc)
  | duration a, duration b => some (Ord.compare a.total b.total)
  | charset a, charset b => some (compareText a.name b.name)
  | bytes a, bytes b => some (List.compareLex Ord.compare a b)
  | _, _ => none

/-- A total order: within a type the natural one, refined where that is partial, else by type. -/
def totalCompare : Scalar → Scalar → Ordering
  | float a, float b => Ieee.single.totalCompare a.toNat b.toNat
  | double a, double b => Ieee.double.totalCompare a.toNat b.toNat
  | bigDecimal a, bigDecimal b => a.totalCompare b
  | a, b => (a.compare? b).getD (Ord.compare a.type.classId b.type.classId)

/-- A scalar in texts. Byte strings show their length only. -/
def text : Scalar → String
  | bool v => if v then "true" else "false"
  | byte v => toString v.toInt
  | short v => toString v.toInt
  | int v => toString v.toInt
  | long v => toString v.toInt
  | float bits => Shortest.text Ieee.single bits.toNat
  | double bits => Shortest.text Ieee.double bits.toNat
  | char v => v.toString
  | string v => v
  | bigInteger v => v.text
  | bigDecimal v => v.text
  | uuid v => v.text
  | date v => v.text
  | time v => v.text
  | dateTime v => v.text
  | instant v => v.text
  | duration v => v.text
  | charset v => v.name
  | bytes v => s!"<{v.length} bytes>"

end Scalar

end RemoteCall
