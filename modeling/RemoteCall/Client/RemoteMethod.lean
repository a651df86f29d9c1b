import RemoteCall.CallError
import RemoteCall.Envelope.Request
import RemoteCall.Typing.Native

/-!
# Remote methods

What a caller makes of the response to a request: the payload of a success, if it fits the return
type that the caller declared, and then as data of a native type.
-/

namespace RemoteCall

namespace RemoteMethod

/-- The payload of a response, if the declared return type takes it. -/
def payload (r : Request) (response : Response) : Except CallError Value := do
  let v ← response.payload?
  if r.signature.returns.acceptsReturn v then return v
  else throw (.invalidResponse (r.mismatchText v))

/-- The payload of a response as data of a native type. -/
def result (r : Request) (t : NativeType) (response : Response) : Except CallError t.Data := do
  let v ← payload r response
  (t.ofValue v).mapError CallError.codec

end RemoteMethod

end RemoteCall
