import RemoteCall.Codec.Decode
import RemoteCall.Frame
import RemoteCall.Server.Activity
import RemoteCall.Server.Dispatch

/-!
# Connections of a server

A connection reads requests and writes responses as they come about. A request with mismatched
arguments, or with an id that is in flight, is refused at once and changes nothing else. Any other
request is admitted: its id is in flight until its response is written, whether a handler runs for
it or no method is bound.

A bad frame, an undecodable request or a failure to read is fatal: every request in flight is
answered with that failure, in the order of the ids, and the connection ends. It ends without a
word when the peer closes its side or when the server closes it, and with an error when a response
does not even fit as a failure.

A connection is a state; each step gives the next state and what is to be done outside.
-/

namespace RemoteCall

/-- An admitted request that has no response yet. -/
structure Invocation where
  /-- The number of the request among all that the connection admitted. -/
  ticket : Nat
  request : Request
  /-- Whether a method is bound for the request, so that a handler runs. -/
  isBound : Bool

/-- How a connection has ended. -/
inductive ConnectionEnd
  /-- The peer has closed its side, or the server has closed the connection. -/
  | clean
  | failed (cause : CallError)
  deriving DecidableEq

/-- What a step of a connection does outside of it. -/
inductive ConnectionEffect (m : Type → Type)
  /-- A handler starts on its arguments. -/
  | invoke (ticket : Nat) (f : Method m) (arguments : List Value)
  /-- A response is written, as the bytes of its frame. -/
  | write (response : Response) (bytes : List UInt8)
  /-- The connection has ended; handlers that still run are given up. -/
  | ended (how : ConnectionEnd)

/-- A connection with its requests in flight. -/
structure Connection where
  /-- The bytes that have arrived. -/
  reader : FrameReader
  /-- The ids of the admitted requests that have not been answered. -/
  inFlight : List UInt64
  running : List Invocation
  /-- The number of the request admitted last. -/
  lastTicket : Nat
  activity : Activity
  /-- Whether the server wants the connection closed. -/
  isClosing : Bool
  /-- How the connection has ended, if it has. -/
  ending : Option ConnectionEnd

namespace Connection

/-- A connection that is accepted at a moment. -/
def start (maxFrameSize : Nat) (now : Moment) : Connection :=
  { reader := .start maxFrameSize, inFlight := [], running := [], lastTicket := 0
    activity := .start now, isClosing := false, ending := none }

/-- Whether the connection has ended. -/
def isEnded (c : Connection) : Bool := c.ending.isSome

/-- The connection with other ids in flight. -/
def withInFlight (c : Connection) (ids : List UInt64) : Connection :=
  { c with inFlight := ids, activity := { c.activity with inFlight := ids.length } }

/-- The connection with an id no longer in flight. -/
def release (c : Connection) (id : UInt64) : Connection := c.withInFlight (c.inFlight.erase id)

/-- Ends the connection. -/
def finish (c : Connection) (how : ConnectionEnd) : Connection × List (ConnectionEffect m) :=
  ({ c with running := [], ending := some how }, [.ended how])

/-- Writes a response, or the failure that replaces it, if that fits the limit on frames. -/
def write (d : Dispatcher m) (now : Moment) (c : Connection) (r : Response) :
    Except CallError (Connection × List (ConnectionEffect m)) := do
  let (sent, body) := d.reply now.timestamp r
  let bytes ← Frame.encode d.maxFrameSize body
  return ({ c with activity := c.activity.touch now }, [.write sent bytes])

/-- Writes a response; the connection ends if that is not possible. -/
def respond (d : Dispatcher m) (now : Moment) (c : Connection) (r : Response) :
    Connection × List (ConnectionEffect m) :=
  match c.write d now r with
  | .ok done => done
  | .error e => c.finish (.failed e)

/-- Answers the requests of ids in flight with a failure, up to the first answer that cannot be
written. -/
def abandon (d : Dispatcher m) (now : Moment) (status : Status) (reason : String) :
    List UInt64 → Connection → Connection × List (ConnectionEffect m)
  | [], c => (c, [])
  | id :: rest, c =>
    match (c.release id).write d now (.failure id now.timestamp status reason) with
    | .error _ => (c.release id, [])
    | .ok (c, effects) =>
      let (c, more) := abandon d now status reason rest c
      (c, effects ++ more)

/-- The status that a fatal failure gives to the requests in flight. -/
def fatalStatus (cause : CallError) : Status :=
  if cause.isProtocol then .protocolError else .unknownError

/-- A fatal failure: all requests in flight are answered with it, smaller ids first. -/
def fail (d : Dispatcher m) (now : Moment) (c : Connection) (cause : CallError) :
    Connection × List (ConnectionEffect m) :=
  let ids := c.inFlight.mergeSort (· ≤ ·)
  let (c, effects) := abandon d now (fatalStatus cause) cause.message ids c
  let (c, more) := c.finish (.failed cause)
  (c, effects ++ more)

/-- A request has been decoded: it is refused or admitted. -/
def enter (d : Dispatcher m) (now : Moment) (c : Connection) (r : Request) :
    Connection × List (ConnectionEffect m) :=
  if !r.isMatch then c.respond d now (r.argumentsRefusal now.timestamp)
  else if c.inFlight.contains r.id then c.respond d now (r.duplicateRefusal now.timestamp)
  else
    let ticket := c.lastTicket + 1
    let f := d.method? r
    let admitted := c.withInFlight (c.inFlight ++ [r.id])
    ({ admitted with lastTicket := ticket, running := c.running ++ [⟨ticket, r, f.isSome⟩] },
      f.toList.map fun f => .invoke ticket f r.arguments)

/-- Reads one request if its frame is complete. At the end of the stream the connection ends when
no frame is complete any more. -/
def read (d : Dispatcher m) (now : Moment) (c : Connection) (atEnd : Bool) :
    Connection × List (ConnectionEffect m) :=
  match c.reader.next with
  | (.ok (some body), reader) =>
    match d.codec.decodeRequest body with
    | .ok r => { c with reader }.enter d now r
    | .error e => { c with reader }.fail d now (.codec e)
  | (.error e, reader) => { c with reader }.fail d now e
  | (.ok none, reader) =>
    if atEnd then
      match reader.finish with
      | .clean => { c with reader }.finish .clean
      | .broken cause => { c with reader }.fail d now cause
    else ({ c with reader }, [])

/-- The response to an admitted request is there. -/
def complete (d : Dispatcher m) (now : Moment) (c : Connection) (i : Invocation) (r : Response) :
    Connection × List (ConnectionEffect m) :=
  let rest := { c with running := c.running.filter (·.ticket != i.ticket) }
  (rest.release r.id).respond d now r

/-- The invocation of a ticket. -/
def invocation? (c : Connection) (ticket : Nat) : Option Invocation :=
  c.running.find? (·.ticket == ticket)

end Connection

/-- What can happen to a connection. -/
inductive ConnectionEvent
  /-- Bytes arrive from the peer. -/
  | receive (bytes : List UInt8)
  /-- The next frame is looked for, perhaps at the end of the stream. -/
  | read (atEnd : Bool)
  /-- Reading from the peer has failed. -/
  | readFailed (reason : String)
  /-- The handler of a request has ended. -/
  | handled (ticket : Nat) (outcome : Outcome)
  /-- A request for which no method is bound gets its response. -/
  | unbound (ticket : Nat)
  /-- The server wants the connection closed. -/
  | closing
  /-- A connection that is wanted closed ends. -/
  | close

namespace Connection

/-- One step of a connection; nothing happens after its end. -/
def step (d : Dispatcher m) (now : Moment) (c : Connection) (e : ConnectionEvent) :
    Connection × List (ConnectionEffect m) :=
  if c.isEnded then (c, [])
  else
    match e with
    | .receive bytes => ({ c with reader := c.reader.feed bytes }, [])
    | .read atEnd => c.read d now atEnd
    | .readFailed reason => c.fail d now (.io reason)
    | .handled ticket outcome =>
      match c.invocation? ticket with
      | some i =>
        if i.isBound then c.complete d now i (i.request.report now.timestamp outcome) else (c, [])
      | none => (c, [])
    | .unbound ticket =>
      match c.invocation? ticket with
      | some i =>
        if i.isBound then (c, []) else c.complete d now i (i.request.lookupRefusal now.timestamp)
      | none => (c, [])
    | .closing => ({ c with isClosing := true }, [])
    | .close => if c.isClosing then c.finish .clean else (c, [])

/-- A run of steps, each at its moment, with everything that is done outside, in order. -/
def run (d : Dispatcher m) (c : Connection) :
    List (Moment × ConnectionEvent) → Connection × List (ConnectionEffect m)
  | [] => (c, [])
  | (now, e) :: rest =>
    let (c, effects) := c.step d now e
    let (c, more) := c.run d rest
    (c, effects ++ more)

end Connection

end RemoteCall
