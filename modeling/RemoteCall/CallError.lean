import RemoteCall.Envelope.Response

/-!
# Causes of call failure

Everything that can end a call, a session, a connection or a build of client or server. A cause is
a protocol error when the peer sent what it must not send; `CallError.forPending` is what the calls
that wait at that moment get to see.
-/

namespace RemoteCall

/-- What can be closed only once. -/
inductive Closable
  | session | connector
  deriving DecidableEq

namespace Closable

/-- The name in a message. -/
def text : Closable → String
  | session => "ClientSession"
  | connector => "Connector"

end Closable

/-- A cause of failure above the codec. -/
inductive CallError
  | transport (reason : String)
  | io (reason : String)
  | connection (reason : String)
  | connectionClosed (reason : String)
  | protocol (reason : String)
  | badMagic (found : Nat)
  | frameTooLarge (size max : Nat)
  | codec (cause : CodecError)
  /-- The call timeout in milliseconds has passed. -/
  | timeout (millis : Nat)
  | duplicateRequestId (id : UInt64)
  | remote (status : Status) (message : String)
  | invalidResponse (reason : String)
  | connectAttemptsExceeded (attempts : Nat)
  | alreadyClosed (what : Closable)
  | invalidConfig (reason : String)
  deriving DecidableEq

namespace CallError

/-- A 16-bit number as four hexadecimal digits. -/
def hexWord (n : Nat) : String :=
  let digits := Nat.toDigits 16 n
  "0x" ++ String.ofList (List.replicate (4 - digits.length) '0' ++ digits)

/-- The wording of a failure. -/
def message : CallError → String
  | transport reason => "Transport error: " ++ reason
  | io reason => "IO error: " ++ reason
  | connection reason => "Connection error: " ++ reason
  | connectionClosed reason => "Connection closed: " ++ reason
  | protocol reason => "Protocol error: " ++ reason
  | badMagic found => "Unknown frame magic: " ++ hexWord found
  | frameTooLarge size max => s!"Frame too large: {size} bytes (max {max} bytes)"
  | codec cause => "Codec error: " ++ cause.message
  | timeout millis => s!"Request timeout after {millis}ms"
  | duplicateRequestId id => s!"Duplicated requestId: {id.toNat}"
  | remote status message => "Remote call failed with " ++ status.name ++ ": " ++ message
  | invalidResponse reason => "Invalid response: " ++ reason
  | connectAttemptsExceeded attempts => s!"Connecting failed over maximum limit: {attempts}"
  | alreadyClosed what => what.text ++ " already closed"
  | invalidConfig reason => "Invalid configuration: " ++ reason

/-- Whether the peer sent what it must not send. -/
def isProtocol : CallError → Bool
  | protocol _ | badMagic _ | frameTooLarge _ _ | codec _ => true
  | _ => false

/-- What a failure of the connection means to the calls that wait for a response. -/
def forPending : CallError → CallError
  | protocol reason => protocol reason
  | connectionClosed reason => connectionClosed reason
  | e => if e.isProtocol then protocol e.message else connectionClosed e.message

/-- Waiting calls hear of a breach of the protocol if there was one, and else that the connection
has closed. -/
theorem forPending_cases (e : CallError) :
    (e.isProtocol = true ∧ ∃ reason, e.forPending = protocol reason) ∨
      (e.isProtocol = false ∧ ∃ reason, e.forPending = connectionClosed reason) := by
  cases e <;> simp [isProtocol, forPending]

end CallError

namespace Response

/-- The payload of a success, or the failure that the server reports. -/
def payload? (r : Response) : Except CallError Value :=
  if r.isOk then .ok r.payload else .error (.remote r.status (r.message.getD ""))

end Response

end RemoteCall
