import RemoteCall.Value.Container

/-!
# Native types

The types that handlers and callers work with instead of values: scalars, any value, no value, and
options and lists of these. Going to a value always succeeds; coming back fails where the value is
of another kind. An absent option is null, and a list may come from any collection.
-/

namespace RemoteCall

/-- A type with a native form. -/
inductive NativeType
  | bool | byte | short | int | long | float | double | char | string
  | uuid | date | time | dateTime | instant | duration
  | value | unit
  | option (t : NativeType)
  | list (t : NativeType)
  deriving DecidableEq

namespace NativeType

/-- The data of a type. Floating-point numbers are given by their bits. -/
abbrev Data : NativeType → Type
  | bool => Bool
  | byte => Int8
  | short => Int16
  | int => Int32
  | long => Int64
  | float => UInt32
  | double => UInt64
  | char => Char
  | string => String
  | uuid => Uuid
  | date => Date
  | time => Time
  | dateTime => DateTime
  | instant => Instant
  | duration => Duration
  | value => Value
  | unit => Unit
  | option t => Option t.Data
  | list t => List t.Data

/-- The refusal of a value of another kind. -/
def mismatch (expected : String) (found : Value) : CodecError :=
  .typeMismatch expected found.typeName

/-- The items of a list, set or array. -/
def items? : Value → Option (List Value)
  | .collection _ _ items => some items
  | _ => none

/-- The data of a value. -/
def ofValue : (t : NativeType) → Value → Except CodecError t.Data
  | bool, v => match v with
    | .scalar (.bool a) => .ok a
    | v => .error (mismatch "Bool" v)
  | byte, v => match v with
    | .scalar (.byte a) => .ok a
    | v => .error (mismatch "Byte" v)
  | short, v => match v with
    | .scalar (.short a) => .ok a
    | v => .error (mismatch "Short" v)
  | int, v => match v with
    | .scalar (.int a) => .ok a
    | v => .error (mismatch "Int" v)
  | long, v => match v with
    | .scalar (.long a) => .ok a
    | v => .error (mismatch "Long" v)
  | float, v => match v with
    | .scalar (.float a) => .ok a
    | v => .error (mismatch "Float" v)
  | double, v => match v with
    | .scalar (.double a) => .ok a
    | v => .error (mismatch "Double" v)
  | char, v => match v with
    | .scalar (.char a) => .ok a
    | v => .error (mismatch "Char" v)
  | string, v => match v with
    | .scalar (.string a) => .ok a
    | v => .error (mismatch "String" v)
  | uuid, v => match v with
    | .scalar (.uuid a) => .ok a
    | v => .error (mismatch "Uuid" v)
  | date, v => match v with
    | .scalar (.date a) => .ok a
    | v => .error (mismatch "Date" v)
  | time, v => match v with
    | .scalar (.time a) => .ok a
    | v => .error (mismatch "Time" v)
  | dateTime, v => match v with
    | .scalar (.dateTime a) => .ok a
    | v => .error (mismatch "DateTime" v)
  | instant, v => match v with
    | .scalar (.instant a) => .ok a
    | v => .error (mismatch "Instant" v)
  | duration, v => match v with
    | .scalar (.duration a) => .ok a
    | v => .error (mismatch "Duration" v)
  | value, v => .ok v
  | unit, v => match v with
    | .null => .ok ()
    | v => .error (mismatch "null" v)
  | option t, v => match v with
    | .null => .ok none
    | v => some <$> ofValue t v
  | list t, v => match items? v with
    | some items => items.mapM (ofValue t)
    | none => .error (mismatch "List" v)

/-- The least number above every instance number in data of a type. -/
def nextInstance : (t : NativeType) → t.Data → Nat
  | value, v => v.nextInstance
  | option t, some a => nextInstance t a
  | list t, items => (items.map (nextInstance t)).foldl max 0
  | _, _ => 0

/-- The value of data, with new lists numbered in the order in which they are completed. -/
def number : (t : NativeType) → t.Data → StateM Nat Value
  | bool, a => return .scalar (.bool a)
  | byte, a => return .scalar (.byte a)
  | short, a => return .scalar (.short a)
  | int, a => return .scalar (.int a)
  | long, a => return .scalar (.long a)
  | float, a => return .scalar (.float a)
  | double, a => return .scalar (.double a)
  | char, a => return .scalar (.char a)
  | string, a => return .scalar (.string a)
  | uuid, a => return .scalar (.uuid a)
  | date, a => return .scalar (.date a)
  | time, a => return .scalar (.time a)
  | dateTime, a => return .scalar (.dateTime a)
  | instant, a => return .scalar (.instant a)
  | duration, a => return .scalar (.duration a)
  | value, v => return v
  | unit, _ => return .null
  | option _, none => return .null
  | option t, some a => number t a
  | list t, items => do
    let values ← items.mapM (number t)
    let id ← get
    set (id + 1)
    return Value.ofList id values

/-- The value of data. Its lists are new instances. -/
def toValue (t : NativeType) (a : t.Data) : Value := (number t a (nextInstance t a)).1

end NativeType

end RemoteCall
