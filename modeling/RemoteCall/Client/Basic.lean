import RemoteCall.Client.Connector
import RemoteCall.Client.TimedSession

/-!
# Clients

A client is a connector together with the sessions of the connections that it made. Sessions that
the connector closes are closed, and a session that closes on its own is reported to the connector.
-/

namespace RemoteCall

/-- A connection that a client made, with its session. -/
structure Link where
  /-- The generation of the attempt that made the connection. -/
  generation : Nat
  timed : TimedSession

namespace Link

/-- Whether the session of the connection has closed. -/
def isClosed (l : Link) : Bool := l.timed.session.isClosed

end Link

/-- A connector and its sessions. -/
structure Client where
  connector : Connector
  codec : CodecSettings
  /-- The connections made so far, in order. -/
  links : List Link

/-- What a step of a client does outside of it. -/
inductive ClientEffect
  /-- A caller is given the generation of a session, or a failure. -/
  | answer (caller : Nat) (outcome : Except CallError Nat)
  /-- An attempt to connect starts. -/
  | connect (generation : Nat)
  /-- The session of a generation does something. -/
  | session (generation : Nat) (e : SessionEffect)

namespace Client

/-- A client that has not been asked. -/
def start (settings : ClientSettings) (codec : CodecSettings) : Client :=
  ⟨.start settings, codec, []⟩

/-- Makes a client, if the settings of client and codec allow it. -/
def make? (settings : ClientSettings) (codec : CodecSettings) : Except CallError Client :=
  return ⟨← Connector.make? settings codec, codec, []⟩

/-- The connection of a generation. -/
def link? (c : Client) (generation : Nat) : Option Link :=
  c.links.find? (·.generation == generation)

/-- Something happens to the session of a generation. -/
def onSession (c : Client) (generation : Nat) (e : SessionEvent) : Client × List ClientEffect :=
  match c.link? generation with
  | none => (c, [])
  | some l =>
    let (timed, effects) := l.timed.perform e
    let links := c.links.map fun old =>
      if old.generation == generation then { old with timed } else old
    let connector :=
      if timed.session.isClosed && !l.isClosed then c.connector.sessionClosed generation
      else c.connector
    ({ c with connector, links }, effects.map (.session generation ·))

/-- Does what the connector wants done. -/
def carryOut (c : Client) : List ConnectorEffect → Client × List ClientEffect
  | [] => (c, [])
  | e :: rest =>
    let (c, effects) :=
      match e with
      | .answer caller outcome => (c, [ClientEffect.answer caller outcome])
      | .connect generation => (c, [.connect generation])
      | .closeSession generation => c.onSession generation .close
    let (c, more) := c.carryOut rest
    (c, effects ++ more)

/-- Something happens to the connector. A connection that comes about gets its session first. -/
def onConnector (c : Client) (e : ConnectorEvent) : Client × List ClientEffect :=
  let links :=
    match e with
    | .succeed generation =>
      if (c.connector.attempt? generation).isSome then
        c.links ++ [⟨generation, .start c.connector.settings c.codec⟩]
      else c.links
    | _ => c.links
  let (connector, effects) := c.connector.step e
  { c with connector, links }.carryOut effects

/-- The clock of all timers moves by so many nanoseconds. -/
def advance (c : Client) (nanos : Nat) : Client × List ClientEffect :=
  let moved := c.links.map fun l => (l, l.timed.advance nanos)
  ({ c with links := moved.map fun (l, timed, _) => { l with timed } },
    moved.flatMap fun (l, _, effects) => effects.map (.session l.generation ·))

end Client

/-- What can happen to a client. -/
inductive ClientEvent
  /-- A caller asks for the session. -/
  | request (caller : Nat)
  /-- An attempt gets its connection, and its session is given to the callers. -/
  | succeed (generation : Nat)
  | fail (generation : Nat) (reason : String)
  /-- Something happens to the session of a generation. -/
  | onSession (generation : Nat) (e : SessionEvent)
  | advance (nanos : Nat)
  | close

namespace Client

/-- One step of a client. -/
def step (c : Client) : ClientEvent → Client × List ClientEffect
  | .request caller => c.onConnector (.request caller)
  | .succeed generation => c.onConnector (.succeed generation)
  | .fail generation reason => c.onConnector (.fail generation reason)
  | .onSession generation e => c.onSession generation e
  | .advance nanos => c.advance nanos
  | .close => c.onConnector .close

/-- A run of steps with everything that is done outside, in order. -/
def run (c : Client) : List ClientEvent → Client × List ClientEffect
  | [] => (c, [])
  | e :: rest =>
    let (c, effects) := c.step e
    let (c, more) := c.run rest
    (c, effects ++ more)

end Client

end RemoteCall
