import RemoteCall.Client.RemoteMethod
import RemoteCall.Client.Session
import RemoteCall.Proofs.Server.Replies
import RemoteCall.Proofs.Wire.WholeFrames

/-!
# Exchanges

A session and the connection of a server at its other end, with the bytes that one side has written
and that have not arrived at the other. Requests are written, arrive in pieces of any size, are read
and answered, and the responses travel back in the same way, for many calls at once and in any
order. Nothing goes wrong in between: no timer ends a call, and neither side closes, breaks off or
is lost.
-/

namespace RemoteCall

variable {m : Type → Type}

/-- The bytes that an effect writes to the peer. -/
def SessionEffect.bytes : SessionEffect → List UInt8
  | .write bytes => bytes
  | _ => []

/-- The bytes that an effect writes to the peer. -/
def ConnectionEffect.bytes : ConnectionEffect m → List UInt8
  | .write _ bytes => bytes
  | _ => []

/-- A handler that has started: for which invocation, of which method, and on which arguments. -/
structure Work (m : Type → Type) where
  invocation : Invocation
  method : Method m
  arguments : List Value

/-- The handler that an effect of a connection starts. -/
def Connection.started (c : Connection) : ConnectionEffect m → Option (Work m)
  | .invoke ticket f arguments => (c.invocation? ticket).map fun i => ⟨i, f, arguments⟩
  | _ => none

/-- A client and a server that share a codec, and what the handlers of the server come to. -/
structure Partners (m : Type → Type) where
  settings : ClientSettings
  /-- The services of the server, the codec of both, and the limit of the server on frames. -/
  dispatcher : Dispatcher m
  /-- How the handler of an invocation ends. -/
  outcome : Invocation → Outcome

/-- A session and a connection at the two ends of a stream in either direction. -/
structure Exchange where
  session : Session
  connection : Connection
  /-- What the session has written and has not arrived. -/
  upstream : List UInt8
  /-- What the connection has written and has not arrived. -/
  downstream : List UInt8

/-- What can happen in an exchange. -/
inductive ExchangeEvent
  /-- A call takes its slot. -/
  | enter (caller : Nat) (r : Request)
  /-- The request of a generation is handed to the writer. -/
  | queue (generation : Nat)
  /-- The session writes its next request. -/
  | write
  /-- So many bytes arrive at the connection. -/
  | arrive (count : Nat)
  /-- The connection looks for its next frame. -/
  | read
  /-- The handler of a ticket ends. -/
  | handled (ticket : Nat)
  /-- A request for which no method is bound gets its response. -/
  | unbound (ticket : Nat)
  /-- So many bytes arrive at the session. -/
  | deliver (count : Nat)

namespace Exchange

/-- What a step does outside of the exchange: what the session does there, and the handlers that
start. -/
abbrev Effects (m : Type → Type) := List SessionEffect × List (Work m)

/-- An exchange over a fresh connection. -/
def start (p : Partners m) (opened : Moment) : Exchange :=
  ⟨.start p.settings p.dispatcher.codec, .start p.dispatcher.maxFrameSize opened, [], []⟩

/-- Something happens to the session. -/
def atSession (x : Exchange) (e : SessionEvent) : Exchange × Effects m :=
  let (session, effects) := x.session.step e
  ({ x with session, upstream := x.upstream ++ effects.flatMap SessionEffect.bytes }, effects, [])

/-- Something happens to the connection. -/
def atConnection (p : Partners m) (now : Moment) (x : Exchange) (e : ConnectionEvent) :
    Exchange × Effects m :=
  let (connection, effects) := x.connection.step p.dispatcher now e
  ({ x with connection, downstream := x.downstream ++ effects.flatMap ConnectionEffect.bytes },
    [], effects.filterMap connection.started)

/-- The event that a response of the connection comes from, if an event is one of those. -/
def answering? (p : Partners m) (x : Exchange) : ExchangeEvent → Option ConnectionEvent
  | .read => some (.read false)
  | .handled ticket =>
    (x.connection.invocation? ticket).map fun i => .handled ticket (p.outcome i)
  | .unbound ticket => some (.unbound ticket)
  | _ => none

/-- One step of an exchange. -/
def step (p : Partners m) (now : Moment) (x : Exchange) (e : ExchangeEvent) :
    Exchange × Effects m :=
  match e with
  | .enter caller r => x.atSession (.enter caller r)
  | .queue generation => x.atSession (.queue generation)
  | .write => x.atSession .writeNext
  | .arrive count =>
    { x with upstream := x.upstream.drop count }.atConnection p now
      (.receive (x.upstream.take count))
  | .deliver count =>
    { x with downstream := x.downstream.drop count }.atSession
      (.receive (x.downstream.take count))
  | e =>
    match x.answering? p e with
    | some e => x.atConnection p now e
    | none => (x, [], [])

/-- A run of steps, each at its moment, with everything that is done outside, in order. -/
def run (p : Partners m) (x : Exchange) : List (Moment × ExchangeEvent) → Exchange × Effects m
  | [] => (x, [], [])
  | (now, e) :: rest =>
    let (x, effects, works) := x.step p now e
    let (x, more, later) := x.run p rest
    (x, effects ++ more, works ++ later)

/-- Nothing is left to be done: no request waits to be handed over or written, nothing is on its
way, no frame is complete and no invocation runs. -/
structure AtRest (x : Exchange) : Prop where
  unqueued : x.session.unqueued = []
  outbound : x.session.outbound = []
  upstream : x.upstream = []
  unread : x.connection.reader.next.1 = .ok none
  running : x.connection.running = []
  downstream : x.downstream = []

/-- The response that an event calls for at the connection, if it calls for one. -/
def called? (p : Partners m) (now : Moment) (x : Exchange) (e : ExchangeEvent) : Option Response :=
  (x.answering? p e).bind (x.connection.response? p.dispatcher now)

end Exchange

/-- The calls that events make, each by its caller and its request. -/
def ExchangeEvent.asked : ExchangeEvent → List (Nat × Request)
  | .enter caller r => [(caller, r)]
  | _ => []

/-- The calls that the events of a run make, in order. -/
def asked (events : List (Moment × ExchangeEvent)) : List (Nat × Request) :=
  events.flatMap fun event => event.2.asked

namespace Partners

variable (p : Partners m)

/-- A body keeps to the limits of both sides. -/
def Fits (body : List UInt8) : Prop :=
  body.length ≤ p.settings.maxFrameSize ∧ body.length ≤ p.dispatcher.maxFrameSize

instance (body : List UInt8) : Decidable (p.Fits body) := inferInstanceAs (Decidable (_ ∧ _))

/-- What the codec makes of a request that it carries over alike. -/
structure Carries (r : Request) (body : List UInt8) : Prop where
  sendable : Graph.Sendable r.arguments
  /-- No array of no value stands in the signature: it could be written but not read. -/
  voidless : ∀ spec ∈ r.signature.returns :: r.signature.params, spec.type.hasVoidArray = false
  encoded : p.dispatcher.codec.encodeRequest r = .ok body
  fits : p.Fits body

/-- What the codec makes of a response that it carries over alike. -/
structure Returns (r : Response) (body : List UInt8) : Prop where
  sendable : Graph.Sendable [r.payload]
  encoded : p.dispatcher.codec.encodeResponse r = .ok body
  fits : p.Fits body

/-- What is asked for of an event: the request of a call and the response that the connection gives
are carried over alike, and no call that waits has the id of a new one. Ids are counted up, so a
caller that leaves them alone never repeats one. -/
structure Admits (now : Moment) (x : Exchange) (e : ExchangeEvent) : Prop where
  request : ∀ caller r, e = .enter caller r →
    x.session.slot? r.id = none ∧ ∃ body, p.Carries r body
  response : ∀ r, x.called? p now e = some r → ∃ body, p.Returns r body

/-- What is asked for of all events of a run, each in its turn. -/
def AdmitsRun (x : Exchange) : List (Moment × ExchangeEvent) → Prop
  | [] => True
  | (now, e) :: rest => p.Admits now x e ∧ AdmitsRun (x.step p now e).1 rest

/-- What the two sides must have agreed on: every registered class can be announced, and the limit
on frames fits the length of a header. -/
structure Agreed : Prop where
  announced : p.dispatcher.codec.CanAnnounce
  limit : p.dispatcher.maxFrameSize < UInt32.size

namespace Agreed

variable {p : Partners m} {body : List UInt8}

/-- A body that keeps to the limits can be framed for either side. -/
theorem isLength (h : p.Agreed) (hfits : p.Fits body) :
    Frame.IsLength p.settings.maxFrameSize body.length ∧
      Frame.IsLength p.dispatcher.maxFrameSize body.length := by
  have hword : body.length < UInt32.size := Nat.lt_of_le_of_lt hfits.2 h.limit
  exact ⟨⟨hfits.1, hword⟩, hfits.2, hword⟩

/-- Its length is a 64-bit word. -/
theorem lt_size (h : p.Agreed) (hfits : p.Fits body) : body.length < UInt64.size :=
  (h.isLength hfits).2.2.trans (by decide)

end Agreed

namespace Admits

variable {p : Partners m} {now : Moment} {x : Exchange} {e : ExchangeEvent}

/-- A call whose request is carried over is admitted while its id is free. -/
theorem call {caller : Nat} {r : Request} {body : List UInt8} (hfree : x.session.slot? r.id = none)
    (hbody : p.Carries r body) : p.Admits now x (.enter caller r) where
  request := by
    rintro _ _ ⟨⟩
    exact ⟨hfree, body, hbody⟩
  response := nofun

/-- What makes no call is admitted if the response that it calls for is carried over. -/
theorem answer (hasked : e.asked = [])
    (hbody : ∀ r, x.called? p now e = some r → ∃ body, p.Returns r body) : p.Admits now x e where
  request := by
    rintro caller r rfl
    cases hasked
  response := hbody

/-- What makes no call and calls for no response is admitted. -/
theorem silent (hasked : e.asked = []) (hcalled : x.called? p now e = none) : p.Admits now x e :=
  answer hasked fun _ hr => absurd (hcalled.symm.trans hr) nofun

end Admits

end Partners

end RemoteCall
