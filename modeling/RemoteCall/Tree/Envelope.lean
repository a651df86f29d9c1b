import RemoteCall.Envelope.Request
import RemoteCall.Envelope.Response
import RemoteCall.Tree.Value

/-!
# Envelopes as trees

Requests and responses as records. Where a record that is read says nothing of them, an id is 1, a
timestamp 0, a status success, and message and payload are absent. The arguments of a request are
one graph.
-/

namespace RemoteCall

/-- The id of a record. -/
def Tree.getId (t : Tree) : Except TreeError UInt64 :=
  Nat.toUInt64 <$> t.getD "id" (Tree.toUnsigned 64) 1

/-- The timestamp of a record. -/
def Tree.getTimestamp (t : Tree) : Except TreeError Int64 :=
  Int64.ofInt <$> t.getD "ts" (Tree.toSigned 64) 0

namespace Request

/-- The request of a tree. -/
def ofTree (t : Tree) : TreeReader Request := do
  let id ← t.getId
  let timestamp ← t.getTimestamp
  let service ← t.get "service" Tree.toText
  let method ← t.get "method" Tree.toText
  let signature ← t.get "sig" Signature.ofTree
  let arguments ← TreeReader.get t "args" (TreeReader.toList Value.ofTree)
  return { id, timestamp, service, method, signature, arguments }

/-- A request as a tree. -/
def toTree (r : Request) : Tree :=
  .record
    [("id", .digits r.id.toNat), ("ts", .digits r.timestamp.toInt), ("service", .text r.service),
      ("method", .text r.method), ("sig", r.signature.toTree),
      ("args", .list (Value.toTrees r.arguments))]

end Request

namespace Status

/-- The status of a tree: its name. -/
def ofTree (t : Tree) : Except TreeError Status := do
  let name ← t.toText
  Tree.demand "status" (all.find? (·.name == name))

end Status

namespace Response

/-- The response of a tree. -/
def ofTree (t : Tree) : TreeReader Response := do
  let id ← t.getId
  let timestamp ← t.getTimestamp
  let status ← t.getD "status" Status.ofTree .ok
  let message ← t.getD "msg" (fun m => some <$> m.toText) none
  let payload ←
    match t.get? "payload" with
    | some v => Value.ofTree v
    | none => pure .null
  return { id, timestamp, status, message, payload }

/-- What a record says of a response besides its timestamp. -/
def fields (r : Response) : List (String × Tree) :=
  [("id", .digits r.id.toNat), ("status", .text r.status.name),
    ("msg", .option Tree.text r.message), ("payload", r.payload.toTree)]

/-- A response as a tree. -/
def toTree (r : Response) : Tree := .record (("ts", .digits r.timestamp.toInt) :: r.fields)

end Response

end RemoteCall
