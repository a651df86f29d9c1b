import RemoteCall.Value.Identity

/-!
# Responses

A response carries the id of its request and a status: success with a payload, or a kind of
failure with a message.
-/

namespace RemoteCall

/-- The outcome of a call as the server reports it. -/
inductive Status
  | ok
  /-- The connection broke the protocol. -/
  | protocolError
  /-- The arguments do not match the signature, or the id is taken. -/
  | parameterError
  /-- There is no such method. -/
  | lookupError
  /-- The handler failed, or returned what it may not. -/
  | invocationError
  | unknownError
  deriving DecidableEq

namespace Status

/-- All statuses, in the order of their ordinals. -/
def all : List Status :=
  [ok, protocolError, parameterError, lookupError, invocationError, unknownError]

/-- The number of a status on the wire. -/
def ordinal : Status → Nat
  | ok => 0
  | protocolError => 1
  | parameterError => 2
  | lookupError => 3
  | invocationError => 4
  | unknownError => 5

/-- The status with a number. -/
def ofOrdinal? (ordinal : Nat) : Option Status := all[ordinal]?

/-- A status is found by its number. -/
theorem ofOrdinal?_ordinal (s : Status) : ofOrdinal? s.ordinal = some s := by
  cases s <;> rfl

/-- The name of a status. -/
def name : Status → String
  | ok => "OK"
  | protocolError => "PROTOCOL_ERROR"
  | parameterError => "PARAMETER_ERROR"
  | lookupError => "LOOKUP_ERROR"
  | invocationError => "INVOCATION_ERROR"
  | unknownError => "UNKNOWN_ERROR"

end Status

/-- The answer to a request. -/
structure Response where
  /-- The id of the request that is answered. -/
  id : UInt64
  /-- When the answer was made, in milliseconds since the start of 1970. -/
  timestamp : Int64
  status : Status
  message : Option String
  payload : Value
  deriving DecidableEq

namespace Response

/-- A success. -/
def success (id : UInt64) (timestamp : Int64) (payload : Value) : Response :=
  ⟨id, timestamp, .ok, none, payload⟩

/-- A failure, without payload. -/
def failure (id : UInt64) (timestamp : Int64) (status : Status) (message : String) : Response :=
  ⟨id, timestamp, status, some message, .null⟩

/-- Whether the response reports success. -/
def isOk (r : Response) : Bool := r.status == .ok

end Response

end RemoteCall
