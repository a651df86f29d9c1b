import RemoteCall.Value.Scalar
import RemoteCall.Comparator

/-!
# Values

A value is null, a scalar, a variant of an enum, or a container: an array or collection, a map, or
an object with fields. Every container is an instance, and one instance may stand at several
places of a graph: two places hold the same instance exactly when their instance numbers agree.
Arrays of a scalar type are written in place wherever they stand, so their numbers mean nothing.

Equality of values looks at contents only, never at instance numbers, and compares floating-point
numbers as numbers. `Value.bare` forgets the instance numbers and keeps everything else.
-/

namespace RemoteCall

/-- What kind of sequence a collection is. -/
inductive CollectionForm
  /-- A fixed sequence of items of a declared type. -/
  | array (element : TypeRef)
  | list
  | set
  | sortedSet (order : Comparator)
  deriving DecidableEq

/-- What kind of association a map is. -/
inductive MapForm
  /-- Entries in order of insertion. -/
  | plain
  | sorted (order : Comparator)
  deriving DecidableEq

/-- A dynamic value. -/
inductive Value
  | null
  | scalar (s : Scalar)
  /-- A variant of a registered enum, by its position. -/
  | variant (className : String) (ordinal : UInt32)
  | collection (instanceId : Nat) (form : CollectionForm) (items : List Value)
  | map (instanceId : Nat) (form : MapForm) (entries : List (Value × Value))
  /-- An instance of a registered class, fields in the order of declaration. -/
  | object (instanceId : Nat) (className : String) (fields : List Value)

instance : Inhabited Value := ⟨.null⟩

namespace CollectionForm

/-- Whether instances of the form keep their identity on the wire. -/
def isTracked : CollectionForm → Bool
  | array element => !element.isScalar
  | _ => true

/-- The name of the form in texts. -/
def name : CollectionForm → String
  | array _ => "Array"
  | list => "List"
  | set => "Set"
  | sortedSet _ => "SortedSet"

end CollectionForm

namespace MapForm

/-- The name of the form in texts. -/
def name : MapForm → String
  | plain => "Map"
  | sorted _ => "SortedMap"

end MapForm

namespace Value

/-- Whether the value is null. -/
def isNull : Value → Bool
  | null => true
  | _ => false

/-- The text that the value is, if it is one. -/
def text? : Value → Option String
  | scalar (.string s) => some s
  | _ => none

/-- The name of the kind of a value. -/
def typeName : Value → String
  | null => "null"
  | scalar s => s.type.name
  | variant _ _ => "Enum"
  | collection _ form _ => form.name
  | map _ form _ => form.name
  | object _ _ _ => "Object"

/-- Whether instances like this one keep their identity on the wire. -/
def isTracked : Value → Bool
  | collection _ form _ => form.isTracked
  | map _ _ _ => true
  | object _ _ _ => true
  | _ => false

mutual

/-- Equality of contents. -/
def same : Value → Value → Bool
  | null, null => true
  | scalar a, scalar b => a.same b
  | variant c i, variant d j => c == d && i == j
  | collection _ f xs, collection _ g ys => f == g && sameItems xs ys
  | map _ f xs, map _ g ys => f == g && sameEntries xs ys
  | object _ c xs, object _ d ys => c == d && sameItems xs ys
  | _, _ => false

/-- Equality of contents, place by place. -/
def sameItems : List Value → List Value → Bool
  | [], [] => true
  | x :: xs, y :: ys => x.same y && sameItems xs ys
  | _, _ => false

/-- Equality of keys and of values, place by place. -/
def sameEntries : List (Value × Value) → List (Value × Value) → Bool
  | [], [] => true
  | (k, v) :: xs, (l, w) :: ys => k.same l && v.same w && sameEntries xs ys
  | _, _ => false

end

instance : BEq Value := ⟨same⟩

mutual

/-- The value without its instance numbers. -/
def bare : Value → Value
  | null => null
  | scalar s => scalar s
  | variant c i => variant c i
  | collection _ form items => collection 0 form (bareItems items)
  | map _ form entries => map 0 form (bareEntries entries)
  | object _ c fields => object 0 c (bareItems fields)

/-- Values without their instance numbers. -/
def bareItems : List Value → List Value
  | [] => []
  | v :: vs => v.bare :: bareItems vs

/-- Entries without their instance numbers. -/
def bareEntries : List (Value × Value) → List (Value × Value)
  | [] => []
  | (k, v) :: rest => (k.bare, v.bare) :: bareEntries rest

end

mutual

/-- The least number above every instance number of the graph. -/
def nextInstance : Value → Nat
  | null => 0
  | scalar _ => 0
  | variant _ _ => 0
  | collection id _ items => max (id + 1) (nextInstanceOf items)
  | map id _ entries => max (id + 1) (nextInstanceOfEntries entries)
  | object id _ fields => max (id + 1) (nextInstanceOf fields)

/-- The least number above every instance number of the values. -/
def nextInstanceOf : List Value → Nat
  | [] => 0
  | v :: vs => max v.nextInstance (nextInstanceOf vs)

/-- The least number above every instance number of the entries. -/
def nextInstanceOfEntries : List (Value × Value) → Nat
  | [] => 0
  | (k, v) :: rest => max (max k.nextInstance v.nextInstance) (nextInstanceOfEntries rest)

end

mutual

/-- The value as text. -/
def text : Value → String
  | null => "null"
  | scalar s => s.text
  | variant c i => c ++ "#" ++ toString i.toNat
  | collection _ form items =>
    match form with
    | .array _ | .list => "[" ++ ", ".intercalate (texts items) ++ "]"
    | .set | .sortedSet _ => "\x7b" ++ ", ".intercalate (texts items) ++ "\x7d"
  | map _ _ entries => "\x7b" ++ ", ".intercalate (entryTexts entries) ++ "\x7d"
  | object _ c fields => c ++ "(" ++ ", ".intercalate (texts fields) ++ ")"

/-- The texts of values. -/
def texts : List Value → List String
  | [] => []
  | v :: vs => v.text :: texts vs

/-- The texts of entries: key and value joined by an equals sign. -/
def entryTexts : List (Value × Value) → List String
  | [] => []
  | (k, v) :: rest => (k.text ++ "=" ++ v.text) :: entryTexts rest

end

end Value

end RemoteCall
