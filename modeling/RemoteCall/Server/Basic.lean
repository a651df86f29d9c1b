import RemoteCall.Server.Connection
import RemoteCall.Server.Settings

/-!
# Servers

A server accepts connections, keeps a table of those that are open, and from time to time closes
the idle ones. Connections do not influence one another. Shutting down has two parts, between which
other things can happen: the server is told and with it every connection, those included that are
still accepted, and then the loop that accepts connections ends and with it the search for idle
ones.
-/

namespace RemoteCall

/-- The parts of a server that has not been started. -/
structure ServerPlan (m : Type → Type) where
  settings : ServerSettings
  dispatcher : Dispatcher m

/-- A running server. -/
structure Server (m : Type → Type) extends ServerPlan m where
  now : Moment
  /-- How many connections have been accepted. -/
  accepted : Nat
  /-- The open connections under their numbers, in the order in which they were accepted. -/
  connections : List (Nat × Connection)
  /-- Whether the server has not been told to shut down. -/
  isRunning : Bool
  /-- Whether the loop that accepts connections has not ended. -/
  isAccepting : Bool

namespace ServerPlan

/-- Makes a server, if settings, codec and services allow it. -/
def make? (settings : ServerSettings) (codec : CodecSettings) (services : List (Service m)) :
    Except CallError (ServerPlan m) :=
  match settings.problem?, codec.problem? with
  | some p, _ => .error (.invalidConfig p.message)
  | none, some p => .error (.invalidConfig p.message)
  | none, none =>
    if services.isEmpty then .error (.invalidConfig "at least one service binding is required")
    else
      match ServiceTable.ofServices services with
      | .error p => .error (.invalidConfig p.message)
      | .ok table => .ok ⟨settings, ⟨table, codec, settings.maxFrameSize⟩⟩

end ServerPlan

namespace Server

/-- A server that starts at a moment. -/
def start (p : ServerPlan m) (timestamp : Int64) : Server m :=
  { p with
    now := ⟨0, timestamp⟩, accepted := 0, connections := [], isRunning := true
    isAccepting := true }

/-- How many connections are open. -/
def connectionCount (s : Server m) : Nat := s.connections.length

/-- The open connection of a number. -/
def connection? (s : Server m) (id : Nat) : Option Connection :=
  (s.connections.find? (·.1 == id)).map (·.2)

/-- A connection that is accepted now. It is to be closed from the first if the server has been told
to shut down. -/
def fresh (s : Server m) : Connection :=
  { Connection.start s.settings.maxFrameSize s.now with isClosing := !s.isRunning }

/-- Accepts a connection and gives its number; once the loop has ended there is none. -/
def accept (s : Server m) : Option Nat × Server m :=
  if s.isAccepting then
    (some s.accepted,
      { s with
        accepted := s.accepted + 1
        connections := s.connections ++ [(s.accepted, s.fresh)] })
  else (none, s)

/-- Something happens to a connection. One that has ended leaves the table. -/
def onConnection (s : Server m) (id : Nat) (e : ConnectionEvent) :
    Server m × List (ConnectionEffect m) :=
  match s.connection? id with
  | none => (s, [])
  | some c =>
    let (c, effects) := c.step s.dispatcher s.now e
    ({ s with
        connections :=
          if c.isEnded then s.connections.filter (·.1 != id)
          else s.connections.map fun (i, old) => if i == id then (i, c) else (i, old) }, effects)

/-- Whether a scan closes a connection. -/
def isReapable (s : Server m) (c : Connection) : Bool :=
  !c.isClosing && c.activity.isIdle s.now s.settings.keepAlive

/-- A connection after a scan. -/
def reaped (s : Server m) (c : Connection) : Connection :=
  if s.isReapable c then { c with isClosing := true } else c

/-- Looks for idle connections and marks them as closing; gives the number of those. -/
def scan (s : Server m) : Nat × Server m :=
  (s.connections.countP fun (_, c) => s.isReapable c,
    { s with connections := s.connections.map fun (id, c) => (id, s.reaped c) })

/-- Whether a scan is due when the clock moves by so many nanoseconds: scans take place at the
multiples of the scan interval. -/
def isScanDue (s : Server m) (nanos : Nat) : Bool :=
  let interval := s.settings.scanInterval.nanos
  s.isRunning && s.settings.isReaping &&
    s.now.ticks / interval < (s.now.ticks + nanos) / interval

/-- The server so many nanoseconds later, if nothing happens on the way. -/
def moved (s : Server m) (nanos : Nat) : Server m := { s with now := s.now.later nanos }

/-- The clock moves; scans that fall due on the way are one scan at the end. -/
def advance (s : Server m) (nanos : Nat) : Server m :=
  if s.isScanDue nanos then (s.moved nanos).scan.2 else s.moved nanos

/-- Whether scans take place at all: idle connections are looked for until the loop ends. -/
def isScanning (s : Server m) : Bool := s.settings.isReaping && s.isAccepting

/-- Marks every connection as closing. -/
def closeAll (s : Server m) : Server m :=
  { s with connections := s.connections.map fun (id, c) => (id, { c with isClosing := true }) }

/-- Tells the server to shut down, and with it every connection. -/
def cancel (s : Server m) : Server m := { s.closeAll with isRunning := false }

/-- The loop that accepts connections ends, if the server has been told to shut down. -/
def stop (s : Server m) : Server m :=
  if s.isRunning then s else { s.closeAll with isAccepting := false }

/-- Stops accepting and marks every connection as closing. -/
def shutdown (s : Server m) : Server m := s.cancel.stop

end Server

/-- What can happen to a server. -/
inductive ServerEvent
  | accept
  | onConnection (id : Nat) (e : ConnectionEvent)
  | advance (nanos : Nat)
  | scan
  /-- The server is told to shut down. -/
  | cancel
  /-- The loop that accepts connections ends. -/
  | stop

namespace Server

/-- One step of a server, with what its connections do, each under its number. -/
def step (s : Server m) : ServerEvent → Server m × List (Nat × ConnectionEffect m)
  | .accept => (s.accept.2, [])
  | .onConnection id e =>
    let (s, effects) := s.onConnection id e
    (s, effects.map (id, ·))
  | .advance nanos => (s.advance nanos, [])
  | .scan => (if s.isScanning then s.scan.2 else s, [])
  | .cancel => (s.cancel, [])
  | .stop => (s.stop, [])

/-- A run of steps. -/
def run (s : Server m) : List ServerEvent → Server m × List (Nat × ConnectionEffect m)
  | [] => (s, [])
  | e :: rest =>
    let (s, effects) := s.step e
    let (s, more) := s.run rest
    (s, effects ++ more)

end Server

end RemoteCall
