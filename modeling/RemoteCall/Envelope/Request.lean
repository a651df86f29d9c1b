import RemoteCall.Typing.Assignable
import RemoteCall.Value.Identity

/-!
# Requests

A request names a service and a method, carries the signature the caller assumes and the arguments,
and is known by its id.
-/

namespace RemoteCall

/-- A call as it travels to the server. -/
structure Request where
  id : UInt64
  /-- When the call was made, in milliseconds since the start of 1970. -/
  timestamp : Int64
  service : String
  method : String
  signature : Signature
  arguments : List Value
  deriving DecidableEq

namespace Request

/-- Whether the arguments match the request's own signature. -/
def isMatch (r : Request) : Bool := r.signature.isMatch r.arguments

/-- The arguments as text, between brackets. -/
def argumentsText (r : Request) : String :=
  "[" ++ ", ".intercalate (r.arguments.map Value.text) ++ "]"

/-- The method with its service and signature. -/
def callText (r : Request) : String := r.service ++ "." ++ r.method ++ r.signature.text

/-- The request as text. -/
def text (r : Request) : String := s!"#{r.id.toNat} " ++ r.callText

/-- What a result that does not fit the declared return type is called. -/
def mismatchText (r : Request) (v : Value) : String :=
  r.service ++ "." ++ r.method ++ " declared " ++ r.signature.returns.text ++ " but returned " ++
    v.typeName

/-- Equality of contents: floating-point arguments are compared as numbers. -/
def same (r q : Request) : Bool :=
  r.id == q.id && r.timestamp == q.timestamp && r.service == q.service && r.method == q.method &&
    r.signature == q.signature && Value.sameItems r.arguments q.arguments

end Request

/-- The ids that fresh requests take, one after the other from 1. -/
structure RequestIds where
  /-- The id given last. -/
  last : UInt64

namespace RequestIds

/-- No id has been given. -/
def start : RequestIds := ⟨0⟩

/-- The next id. -/
def next (ids : RequestIds) : UInt64 × RequestIds := (ids.last + 1, ⟨ids.last + 1⟩)

/-- The id that is given is the one given last from then on. -/
theorem next_fst (ids : RequestIds) : ids.next.1 = ids.next.2.last := rfl

/-- The next `count` ids. -/
def take (ids : RequestIds) : (count : Nat) → List UInt64
  | 0 => []
  | count + 1 => ids.next.1 :: ids.next.2.take count

end RequestIds

end RemoteCall
