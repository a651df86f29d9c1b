import RemoteCall.Codec.Registry
import RemoteCall.Value.Basic

/-!
# Class ids

Every value is announced by the number of its class: scalar types come first, then the built-in
containers, then the two envelopes, and user classes from 64 on. A class tag is zero for null and
the number plus one otherwise. The kind of a class alone decides whether its instances keep their
identity, so writer and reader agree on it without a mark.
-/

namespace RemoteCall

namespace ClassId

/-- No value, in type references. -/
def void : Nat := 0

/-- An array of a scalar type. -/
def scalarArray : Nat := 20

/-- An array of any other type. -/
def instanceArray : Nat := 21

/-- A list, set or sorted set. -/
def collection : Nat := 22

/-- A map or sorted map. -/
def map : Nat := 23

/-- A comparator, which is never a value of its own. -/
def comparator : Nat := 24

/-- Any value, in type references. -/
def any : Nat := 25

/-- A request envelope. -/
def request : Nat := 26

/-- A response envelope. -/
def response : Nat := 27

/-- The class of an array. -/
def ofArray (element : TypeRef) : Nat := if element.isScalar then scalarArray else instanceArray

end ClassId

/-- How the codec treats a class. -/
inductive ValueKind
  | value | enum | comparator | collection | map | object
  deriving DecidableEq

namespace ValueKind

/-- Whether instances of the kind keep their identity. -/
def isTracked : ValueKind → Bool
  | collection | map | object => true
  | _ => false

/-- The name of a kind. -/
def name : ValueKind → String
  | value => "Value"
  | enum => "Enum"
  | comparator => "Comparator"
  | collection => "Collection"
  | map => "Map"
  | object => "Object"

/-- The kind of a class, or the error for a number that never announces a value. -/
def ofClassId (registry : Registry) (classId : Nat) : Except CodecError ValueKind :=
  if (1 ≤ classId ∧ classId ≤ 19) ∨ classId = ClassId.scalarArray then .ok .value
  else if classId = ClassId.instanceArray ∨ classId = ClassId.collection then .ok .collection
  else if classId = ClassId.map then .ok .map
  else if classId = ClassId.comparator then .ok .comparator
  else if RegisteredClass.base ≤ classId then do
    let c ← registry.byClassId classId
    match c.shape with
    | .object _ => return .object
    | .enum _ => return .enum
  else .error (.unexpectedClass .valueClass classId)

end ValueKind

namespace Value

/-- The kind of a value; null and arrays of scalars count as plain values. -/
def kind : Value → ValueKind
  | collection _ form _ => if form.isTracked then .collection else .value
  | map _ _ _ => .map
  | variant _ _ => .enum
  | object _ _ _ => .object
  | _ => .value

/-- The kind of a value tells whether instances like it keep their identity. -/
theorem kind_isTracked (v : Value) : v.kind.isTracked = v.isTracked := by
  cases v with
  | collection _ form _ =>
    cases h : form.isTracked <;> simp [kind, isTracked, h, ValueKind.isTracked]
  | _ => rfl

/-- The class of a value, which for user classes must be registered. -/
def classId (registry : Registry) : Value → Except CodecError Nat
  | null => .ok ClassId.void
  | scalar s => .ok s.type.classId
  | variant c _ => registry.classIdOf c
  | collection _ (.array element) _ => .ok (ClassId.ofArray element)
  | collection _ _ _ => .ok ClassId.collection
  | map _ _ _ => .ok ClassId.map
  | object _ c _ => registry.classIdOf c

end Value

end RemoteCall
