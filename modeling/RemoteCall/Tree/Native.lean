import RemoteCall.Tree.Basic
import RemoteCall.Typing.Native

/-!
# Native types as trees

A native type is a text: the name of a plain type, after a mark for each option and list around it.
Numeric types are named for their kind and their number of bits.
-/

namespace RemoteCall.NativeType

/-- The types without parts by their names. -/
def tags : List (String × NativeType) :=
  [("bool", .bool), ("i8", .byte), ("i16", .short), ("i32", .int), ("i64", .long), ("f32", .float),
    ("f64", .double), ("char", .char), ("string", .string), ("uuid", .uuid), ("date", .date),
    ("time", .time), ("datetime", .dateTime), ("instant", .instant), ("duration", .duration),
    ("value", .value), ("unit", .unit)]

/-- The type of marks and a name. -/
def ofMarks? : List String → Option NativeType
  | [] => none
  | [name] => tags.lookup name
  | mark :: rest =>
    if mark = "opt" then .option <$> ofMarks? rest
    else if mark = "vec" then .list <$> ofMarks? rest
    else none

/-- The native type of a tree. -/
def ofTree (t : Tree) : Except TreeError NativeType := do
  Tree.demand "native type" (ofMarks? ((← t.toText).splitOn ":"))

end RemoteCall.NativeType
