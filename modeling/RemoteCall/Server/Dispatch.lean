import RemoteCall.CallError
import RemoteCall.Codec.Encode
import RemoteCall.Server.Service

/-!
# Dispatch

What a server makes of one request. Arguments that do not match the request's own signature are
refused first; then the method is looked up; then its handler runs, and a value that the declared
return type does not take counts as a failure. A response that cannot be sent, because it does not
encode or is too large, is replaced by a failure that says why.
-/

namespace RemoteCall

namespace Request

/-- The refusal of arguments that do not match the signature. -/
def argumentsRefusal (r : Request) (timestamp : Int64) : Response :=
  .failure r.id timestamp .parameterError
    ("Arguments (" ++ r.argumentsText ++ ") do not match " ++ r.callText)

/-- The refusal of a request whose id is taken. -/
def duplicateRefusal (r : Request) (timestamp : Int64) : Response :=
  .failure r.id timestamp .parameterError (CallError.duplicateRequestId r.id).message

/-- The refusal of a request for a method that is not bound. -/
def lookupRefusal (r : Request) (timestamp : Int64) : Response :=
  .failure r.id timestamp .lookupError ("Method not found: " ++ r.callText)

/-- The response that reports how the handler ended. -/
def report (r : Request) (timestamp : Int64) : Outcome → Response
  | .returned v =>
    if r.signature.returns.acceptsReturn v then .success r.id timestamp v
    else .failure r.id timestamp .invocationError (r.mismatchText v)
  | .failed e => .failure r.id timestamp .invocationError e.message
  | .panicked text =>
    .failure r.id timestamp .invocationError
      (r.service ++ "." ++ r.method ++ " panicked: " ++ text.getD "unknown panic")

end Request

/-- What the connections of a server share: the services, the codec and the limit on frames. -/
structure Dispatcher (m : Type → Type) where
  services : ServiceTable m
  codec : CodecSettings
  maxFrameSize : Nat

namespace Dispatcher

/-- The method that a request calls. -/
def method? (d : Dispatcher m) (r : Request) : Option (Method m) :=
  d.services.resolve? r.service r.method r.signature.params

/-- The response to a request on its own. -/
def dispatch [Monad m] (d : Dispatcher m) (timestamp : Int64) (r : Request) : m Response :=
  if r.isMatch then
    match d.method? r with
    | some f => do return r.report timestamp (← f.handler r.arguments)
    | none => return r.lookupRefusal timestamp
  else return r.argumentsRefusal timestamp

/-- A failure in place of a response that cannot be sent, and its body. -/
def substitute (timestamp : Int64) (r : Response) (cause : CallError) :
    Response × List UInt8 :=
  let failure := Response.failure r.id timestamp .unknownError cause.message
  (failure, Encoder.responseHead failure ++ Varint.encode 0)

/-- A failure in place of a response can be encoded by every codec. -/
theorem encodeResponse_substitute (s : CodecSettings) (timestamp : Int64) (r : Response)
    (cause : CallError) :
    s.encodeResponse (substitute timestamp r cause).1 = .ok (substitute timestamp r cause).2 := by
  simp only [CodecSettings.encodeResponse, Encoder.run, Encoder.response, Encoder.value,
    Encoder.valueTag, Encoder.body, substitute, Response.failure]
  exact congrArg (fun payload => Except.ok (_ ++ payload)) (List.append_nil _)

/-- The response that is sent in the end, and its body. -/
def reply (d : Dispatcher m) (timestamp : Int64) (r : Response) : Response × List UInt8 :=
  match d.codec.encodeResponse r with
  | .ok body =>
    if body.length ≤ d.maxFrameSize then (r, body)
    else substitute timestamp r (.frameTooLarge body.length d.maxFrameSize)
  | .error e => substitute timestamp r (.codec e)

end Dispatcher

end RemoteCall
