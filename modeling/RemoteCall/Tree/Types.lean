import RemoteCall.Comparator
import RemoteCall.Tree.Basic
import RemoteCall.Typing.Signature

/-!
# Types, signatures and comparators as trees

A type without parts is its name in lower case; an array is a record with its element type, a
registered class a record with its name. A primitive specification is a record around its type.
-/

namespace RemoteCall

namespace TypeRef

/-- The types without parts. -/
def plain : List TypeRef :=
  [.void, .any] ++ ScalarType.all.map .scalar ++
    [CollectionKind.list, .set, .sortedSet].map .collection ++ [MapKind.plain, .sorted].map .map

/-- The name of a type without parts in a tree. -/
def tag (t : TypeRef) : String := t.name.toLower

/-- A type as a tree. -/
def toTree : TypeRef → Tree
  | .array element => .record [("array", element.toTree)]
  | .registered name => .record [("class", .text name)]
  | t => .text t.tag

/-- The type of a tree. -/
def ofTree (t : Tree) : Except TreeError TypeRef :=
  match t.part? "array", t.get? "class" with
  | some ⟨element, _⟩, _ => .array <$> ofTree element
  | none, some name => .registered <$> name.toText
  | none, none => do
    let name ← t.toText
    Tree.demand "type" (plain.find? (·.tag == name))
  termination_by sizeOf t

end TypeRef

namespace TypeSpec

/-- A type specification as a tree. -/
def toTree (s : TypeSpec) : Tree :=
  if s.isPrimitive then .record [("prim", s.type.toTree)] else s.type.toTree

/-- The type specification of a tree. -/
def ofTree (t : Tree) : Except TreeError TypeSpec :=
  match t.get? "prim" with
  | some inner => return ⟨← TypeRef.ofTree inner, true⟩
  | none => return ⟨← TypeRef.ofTree t, false⟩

end TypeSpec

namespace Signature

/-- A signature as a tree. -/
def toTree (s : Signature) : Tree :=
  .record [("ret", s.returns.toTree), ("params", .listOf TypeSpec.toTree s.params)]

/-- The signature of a tree. -/
def ofTree (t : Tree) : Except TreeError Signature :=
  return ⟨← t.get "ret" TypeSpec.ofTree, ← t.get "params" (Tree.toList TypeSpec.ofTree)⟩

end Signature

namespace Comparator

/-- The standard comparators by their names in a tree. -/
def tags : List (String × Comparator) :=
  [("natural", natural), ("reverse", reverse), ("all_equal", allEqual),
    ("using_to_string", usingToString)]

/-- A comparator as a tree. -/
def toTree : Comparator → Tree
  | natural => .text "natural"
  | reverse => .text "reverse"
  | allEqual => .text "all_equal"
  | usingToString => .text "using_to_string"
  | custom name => .record [("custom", .text name)]

/-- The comparator of a tree. -/
def ofTree (t : Tree) : Except TreeError Comparator :=
  match t with
  | .text tag => Tree.demand "comparator" (tags.lookup tag)
  | _ => custom <$> t.get "custom" Tree.toText

/-- A comparator is read back from its tree. -/
theorem ofTree_toTree (c : Comparator) : ofTree c.toTree = .ok c := by
  cases c <;> rfl

end Comparator

end RemoteCall
