import RemoteCall.Server.Service
import RemoteCall.Tree.Value

/-!
# Services as trees

A tree describes a service by its name and its methods, which are bound in the order in which they
are listed; how it describes a handler is left open. The tree of a service lists the texts of its
methods in order.
-/

namespace RemoteCall

namespace Service

/-- The service of a tree, given a reader of handlers. -/
def ofTree (handler : Tree → TreeReader (Handler m)) (t : Tree) : TreeReader (Service m) := do
  let name ← t.get "name" Tree.toText
  let methods ← t.get "methods" (Tree.toList pure)
  methods.foldlM (fun (s : Service m) f => do
      let name ← f.get "name" Tree.toText
      let signature ← f.get "sig" Signature.ofTree
      return s.bind name signature (← TreeReader.get f "handler" handler))
    (.named name)

/-- A service as a tree. -/
def toTree (s : Service m) : Tree :=
  let texts := (s.methods.map Method.text).mergeSort fun a b => !(b < a)
  .record
    [("name", .text s.name), ("count", .int s.methods.length), ("methods", .listOf Tree.text texts)]

end Service

/-- A method as a tree. -/
def Method.toTree (f : Method m) : Tree :=
  .record [("name", .text f.name), ("debug", .text f.text), ("sig", .text f.signature.text)]

/-- Services as trees, in the order of their names. -/
def ServiceTable.toTree (t : ServiceTable m) : Tree :=
  .listOf Service.toTree (t.services.mergeSort fun a b => !(b.name < a.name))

end RemoteCall
