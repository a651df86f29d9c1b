/-!
# Type references

The types that signatures and arrays name: nineteen scalar types, collections and maps, arrays of
a type, classes registered under a name, any value, and no value.
-/

namespace RemoteCall

/-- The types whose values have no parts and no identity. -/
inductive ScalarType
  | bool | byte | short | int | long | float | double | char | string
  | bigInteger | bigDecimal | uuid | date | time | dateTime | instant | duration | charset | bytes
  deriving DecidableEq

namespace ScalarType

/-- All scalar types, in the order of their class ids. -/
def all : List ScalarType :=
  [bool, byte, short, int, long, float, double, char, string, bigInteger, bigDecimal, uuid, date,
    time, dateTime, instant, duration, charset, bytes]

/-- The number of a scalar type on the wire, counted from 1. -/
def classId : ScalarType → Nat
  | bool => 1
  | byte => 2
  | short => 3
  | int => 4
  | long => 5
  | float => 6
  | double => 7
  | char => 8
  | string => 9
  | bigInteger => 10
  | bigDecimal => 11
  | uuid => 12
  | date => 13
  | time => 14
  | dateTime => 15
  | instant => 16
  | duration => 17
  | charset => 18
  | bytes => 19

/-- The scalar type with a class id. -/
def ofClassId? (id : Nat) : Option ScalarType := all.find? (·.classId == id)

/-- A scalar type is found by its class id. -/
theorem ofClassId?_classId (t : ScalarType) : ofClassId? t.classId = some t := by
  cases t <;> rfl

/-- The name of a scalar type in texts. -/
def name : ScalarType → String
  | bool => "Bool"
  | byte => "Byte"
  | short => "Short"
  | int => "Int"
  | long => "Long"
  | float => "Float"
  | double => "Double"
  | char => "Char"
  | string => "String"
  | bigInteger => "BigInteger"
  | bigDecimal => "BigDecimal"
  | uuid => "Uuid"
  | date => "Date"
  | time => "Time"
  | dateTime => "DateTime"
  | instant => "Instant"
  | duration => "Duration"
  | charset => "Charset"
  | bytes => "Bytes"

/-- Whether the type has a form without null. -/
def hasPrimitive : ScalarType → Bool
  | bool | byte | short | int | long | float | double | char => true
  | _ => false

end ScalarType

/-- The kinds of collection that a type can name. -/
inductive CollectionKind
  | list | set | sortedSet
  deriving DecidableEq

namespace CollectionKind

/-- The number of a collection kind on the wire. -/
def tag : CollectionKind → UInt8
  | list => 1
  | set => 2
  | sortedSet => 3

/-- The collection kind with a number. -/
def ofTag? (tag : UInt8) : Option CollectionKind :=
  match tag.toNat with
  | 1 => some list
  | 2 => some set
  | 3 => some sortedSet
  | _ => none

/-- A kind of collection is found by its tag. -/
theorem ofTag?_tag (k : CollectionKind) : ofTag? k.tag = some k := by
  cases k <;> rfl

/-- The name of a collection kind in texts. -/
def name : CollectionKind → String
  | list => "List"
  | set => "Set"
  | sortedSet => "SortedSet"

end CollectionKind

/-- The kinds of map that a type can name. -/
inductive MapKind
  | plain | sorted
  deriving DecidableEq

namespace MapKind

/-- The number of a map kind on the wire. -/
def tag : MapKind → UInt8
  | plain => 1
  | sorted => 2

/-- The map kind with a number. -/
def ofTag? (tag : UInt8) : Option MapKind :=
  match tag.toNat with
  | 1 => some plain
  | 2 => some sorted
  | _ => none

/-- A kind of map is found by its tag. -/
theorem ofTag?_tag (k : MapKind) : ofTag? k.tag = some k := by
  cases k <;> rfl

/-- The name of a map kind in texts. -/
def name : MapKind → String
  | plain => "Map"
  | sorted => "SortedMap"

end MapKind

/-- A type as signatures and arrays name it. -/
inductive TypeRef
  /-- No value; meaningful as a return type only. -/
  | void
  /-- Any value at all. -/
  | any
  | scalar (type : ScalarType)
  | collection (kind : CollectionKind)
  | map (kind : MapKind)
  | array (element : TypeRef)
  /-- The class registered under a name. -/
  | registered (className : String)
  deriving DecidableEq

namespace TypeRef

/-- Whether the type is a scalar type. Arrays of these are written in place and never shared. -/
def isScalar : TypeRef → Bool
  | scalar _ => true
  | _ => false

/-- Whether a specification of this type may be primitive. -/
def hasPrimitive : TypeRef → Bool
  | void => true
  | scalar type => type.hasPrimitive
  | _ => false

/-- The name of a type in texts. -/
def name : TypeRef → String
  | void => "void"
  | any => "Any"
  | scalar type => type.name
  | collection kind => kind.name
  | map kind => kind.name
  | array element => element.name ++ "[]"
  | registered className => className

end TypeRef

end RemoteCall
