import RemoteCall.Client.Settings
import RemoteCall.Codec.Encode
import RemoteCall.Codec.Decode

/-!
# Sessions

A session carries many calls over one connection. Each call that is accepted takes a slot under its
request id and a generation of its own; responses are matched by id, timers by id and generation,
so a timer that outlives its call never touches a later call of the same id. A call first takes its
slot and then hands its request to the writer, and other things can happen in between. Requests are
written in the order in which they were handed over, and the timer of a call is armed when its
request has been written.

A session closes once: when it is closed or dropped, when the peer disconnects, or when a bad frame
or response arrives. Then every waiting call fails and no slot is ever taken again.

A session is a state; each step gives the next state and what is to be done outside.
-/

namespace RemoteCall

/-- A call that waits for its response. -/
structure Slot where
  requestId : UInt64
  /-- The number of the call among all that the session accepted. -/
  generation : Nat
  /-- Who waits for the outcome. -/
  caller : Nat
  deriving DecidableEq

/-- A request that waits to be written. -/
structure Outbound where
  requestId : UInt64
  generation : Nat
  body : List UInt8
  deriving DecidableEq

/-- How a call ends. -/
abbrev CallOutcome := Except CallError Response

/-- What a step of a session does outside of it. -/
inductive SessionEffect
  /-- A call ends. -/
  | resolve (caller : Nat) (outcome : CallOutcome)
  /-- Bytes are written to the connection. -/
  | write (bytes : List UInt8)
  /-- The timer of a call starts. -/
  | arm (requestId : UInt64) (generation : Nat)
  /-- The session has closed: the connection is given up and whoever asked for it is told. -/
  | closed

/-- A session with its pending calls and its unwritten requests. -/
structure Session where
  settings : ClientSettings
  codec : CodecSettings
  /-- The bytes that have arrived. -/
  reader : FrameReader
  /-- Why the session closed, if it has. -/
  closeReason : Option String
  /-- The generation of the call accepted last. -/
  lastGeneration : Nat
  /-- The calls that wait, at most one for an id. -/
  slots : List Slot
  /-- The requests of calls that have taken their slots, not handed to the writer yet. -/
  unqueued : List Outbound
  /-- The requests that have been handed to the writer and not been written. -/
  outbound : List Outbound
  /-- Whether requests are still being written. -/
  isWriting : Bool

namespace Session

/-- A session over a fresh connection. -/
def start (settings : ClientSettings) (codec : CodecSettings) : Session :=
  { settings, codec, reader := .start settings.maxFrameSize, closeReason := none
    lastGeneration := 0, slots := [], unqueued := [], outbound := [], isWriting := true }

/-- Opens a session, if the settings allow it. -/
def open? (settings : ClientSettings) (codec : CodecSettings) : Except CallError Session :=
  match settings.problem? with
  | some p => .error (.invalidConfig p.message)
  | none => .ok (start settings codec)

/-- Whether the session has closed. -/
def isClosed (s : Session) : Bool := s.closeReason.isSome

/-- How many calls wait. -/
def pendingCount (s : Session) : Nat := s.slots.length

/-- The slot of an id. -/
def slot? (s : Session) (id : UInt64) : Option Slot := s.slots.find? (·.requestId == id)

/-- The session without the slot of an id. -/
def removeSlot (s : Session) (id : UInt64) : Session :=
  { s with slots := s.slots.filter (·.requestId != id) }

/-- The reason that later calls are given when a cause closes the session. -/
def reasonOf : CallError → String
  | .connectionClosed reason => reason
  | e => e.message

/-- Closes the session and fails every call that waits. A closed session stays as it is. -/
def teardown (s : Session) (cause : CallError) : Session × List SessionEffect :=
  if s.isClosed then (s, [])
  else
    ({ s with closeReason := some (reasonOf cause), slots := [] },
      s.slots.map (fun slot => .resolve slot.caller (.error cause.forPending)) ++ [.closed])

/-- Ends the call of an id and a generation, if that call still waits. -/
def settle (s : Session) (requestId : UInt64) (generation : Nat) (outcome : CallOutcome) :
    Session × List SessionEffect :=
  match s.slot? requestId with
  | some slot =>
    if slot.generation = generation then
      (s.removeSlot requestId, [.resolve slot.caller outcome])
    else (s, [])
  | none => (s, [])

/-- The body of a request that is to be sent, or why its call fails at once: it cannot be encoded,
is too large, or the session is closed. -/
def prepare (s : Session) (r : Request) : Except CallError (List UInt8) :=
  match s.codec.encodeRequest r with
  | .error e => .error (.codec e)
  | .ok body =>
    let max := s.settings.maxFrameSize
    if max < body.length then .error (.frameTooLarge body.length max)
    else
      match s.closeReason with
      | some reason => .error (.connectionClosed reason)
      | none => .ok body

/-- The first part of a call. It fails at once or takes the slot of its id, and a call that held
the slot fails. -/
def enter (s : Session) (caller : Nat) (r : Request) : Session × List SessionEffect :=
  match s.prepare r with
  | .error e => (s, [.resolve caller (.error e)])
  | .ok body =>
    let generation := s.lastGeneration + 1
    let stale := (s.slot? r.id).toList.map fun slot =>
      SessionEffect.resolve slot.caller (.error (.duplicateRequestId r.id))
    let fresh := s.removeSlot r.id
    ({ fresh with
        lastGeneration := generation
        slots := fresh.slots ++ [⟨r.id, generation, caller⟩]
        unqueued := s.unqueued ++ [⟨r.id, generation, body⟩] }, stale)

/-- The second part of a call: its request is handed to the writer. If the writer has stopped, the
call fails. -/
def queue (s : Session) (generation : Nat) : Session × List SessionEffect :=
  match s.unqueued.find? (·.generation == generation) with
  | none => (s, [])
  | some o =>
    let rest := { s with unqueued := s.unqueued.filter (·.generation != generation) }
    if s.isWriting then ({ rest with outbound := s.outbound ++ [o] }, [])
    else rest.settle o.requestId o.generation (.error (.connectionClosed "writer stopped"))

/-- A call whose two parts follow each other at once. -/
def call (s : Session) (caller : Nat) (r : Request) : Session × List SessionEffect :=
  let (entered, effects) := s.enter caller r
  let (queued, more) := entered.queue (s.lastGeneration + 1)
  (queued, effects ++ more)

/-- Writes the next request and arms the timer of its call. -/
def writeNext (s : Session) : Session × List SessionEffect :=
  match s.outbound, s.isWriting with
  | next :: rest, true =>
    ({ s with outbound := rest },
      [.write (Frame.wrap next.body), .arm next.requestId next.generation])
  | _, _ => (s, [])

/-- The next request cannot be written: its call fails and the session closes. -/
def writeFailed (s : Session) (reason : String) : Session × List SessionEffect :=
  match s.outbound, s.isWriting with
  | next :: _, true =>
    let message := (CallError.io reason).message
    let (rest, failed) := s.settle next.requestId next.generation (.error (.transport message))
    let (closed, effects) := rest.teardown (.connectionClosed ("write failed: " ++ message))
    ({ closed with outbound := [], isWriting := false }, failed ++ effects)
  | _, _ => (s, [])

/-- Writing ends after the session has closed; what is unwritten stays so. -/
def stopWriting (s : Session) : Session :=
  if s.isClosed then { s with outbound := [], isWriting := false } else s

/-- A response ends the call that waits under its id; without one it is dropped. -/
def deliver (s : Session) (r : Response) : Session × List SessionEffect :=
  match s.slot? r.id with
  | some slot => (s.removeSlot r.id, [.resolve slot.caller (.ok r)])
  | none => (s, [])

/-- A timer ends the call that armed it, if that still waits. -/
def expire (s : Session) (requestId : UInt64) (generation : Nat) : Session × List SessionEffect :=
  s.settle requestId generation (.error (.timeout s.settings.callTimeout.millis))

/-- A frame has arrived: a response, or what closes the session. -/
def acceptBody (s : Session) (body : List UInt8) : Session × List SessionEffect :=
  if s.isClosed then (s, [])
  else
    match s.codec.decodeResponse body with
    | .ok r => s.deliver r
    | .error e => s.teardown (.codec e)

/-- Frames that arrive one after the other. -/
def acceptBodies (s : Session) : List (List UInt8) → Session × List SessionEffect
  | [] => (s, [])
  | body :: rest =>
    let (s, effects) := s.acceptBody body
    let (s, more) := s.acceptBodies rest
    (s, effects ++ more)

/-- Bytes arrive from the peer. -/
def receive (s : Session) (bytes : List UInt8) : Session × List SessionEffect :=
  if s.isClosed then (s, [])
  else
    let (bodies, failure, reader) := (s.reader.feed bytes).drain
    let (s, effects) := { s with reader }.acceptBodies bodies
    match failure with
    | none => (s, effects)
    | some e =>
      let (s, more) := s.teardown e
      (s, effects ++ more)

/-- The peer has closed its side. -/
def peerClosed (s : Session) : Session × List SessionEffect :=
  match s.reader.finish with
  | .clean => s.teardown (.connectionClosed "connection closed by peer")
  | .broken cause => s.teardown cause

/-- Reading from the connection has failed. -/
def readFailed (s : Session) (reason : String) : Session × List SessionEffect :=
  s.teardown (.io reason)

/-- Closes the session, or says that it has closed before. -/
def close (s : Session) : Except CallError Unit × Session × List SessionEffect :=
  if s.isClosed then (.error (.alreadyClosed .session), s, [])
  else (.ok (), s.teardown (.connectionClosed "session closed"))

/-- The session is given up by its owner. -/
def drop (s : Session) : Session × List SessionEffect :=
  s.teardown (.connectionClosed "session dropped")

end Session

/-- What can happen to a session. -/
inductive SessionEvent
  | call (caller : Nat) (r : Request)
  /-- A call takes its slot; its request is handed over later. -/
  | enter (caller : Nat) (r : Request)
  /-- The request of a generation is handed to the writer. -/
  | queue (generation : Nat)
  | writeNext
  | writeFailed (reason : String)
  | stopWriting
  | receive (bytes : List UInt8)
  | peerClosed
  | readFailed (reason : String)
  | expire (requestId : UInt64) (generation : Nat)
  | close
  | drop

namespace Session

/-- One step of a session. -/
def step (s : Session) : SessionEvent → Session × List SessionEffect
  | .call caller r => s.call caller r
  | .enter caller r => s.enter caller r
  | .queue generation => s.queue generation
  | .writeNext => s.writeNext
  | .writeFailed reason => s.writeFailed reason
  | .stopWriting => (s.stopWriting, [])
  | .receive bytes => s.receive bytes
  | .peerClosed => s.peerClosed
  | .readFailed reason => s.readFailed reason
  | .expire requestId generation => s.expire requestId generation
  | .close => s.close.2
  | .drop => s.drop

/-- A run of steps with everything that is done outside, in order. -/
def run (s : Session) : List SessionEvent → Session × List SessionEffect
  | [] => (s, [])
  | e :: rest =>
    let (s, effects) := s.step e
    let (s, more) := s.run rest
    (s, effects ++ more)

end Session

end RemoteCall
