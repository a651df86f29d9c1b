import RemoteCall.Client.Settings
import RemoteCall.Codec.Settings

/-!
# Connectors

A connector gives the same session to all its callers and connects only when one asks. Callers that
ask while an attempt is in progress wait for that attempt. Attempts are counted and a success
resets the count; when so many have failed in a row as the settings allow, callers are refused
without a further attempt. When its session closes, the connector is idle again.

Sessions are known by the generation of the attempt that made them. A closed connector stays
closed: an attempt that is still in progress is discarded when it ends.

Other things can happen while an attempt ends or a session closes. An attempt first gets its
connection, whose session is then open, and is settled later. A session first closes, and the
connector is told of it later. Closing a connector takes its session away from the callers, and the
session is closed later.
-/

namespace RemoteCall

/-- What a connector has at hand. -/
inductive ConnectorPhase
  | idle
  | connecting (generation : Nat)
  | ready (generation : Nat)
  deriving DecidableEq

/-- The name of a phase. -/
def ConnectorPhase.name : ConnectorPhase → String
  | idle => "idle"
  | connecting _ => "connecting"
  | ready _ => "ready"

/-- An attempt in progress. -/
structure ConnectAttempt where
  generation : Nat
  /-- The callers that wait for it, in the order in which they asked. -/
  callers : List Nat
  /-- Whether the connection is there and its session has been opened. -/
  isConnected : Bool
  deriving DecidableEq

/-- What a step of a connector does outside of it. -/
inductive ConnectorEffect
  /-- A caller is given a session or a failure. -/
  | answer (caller : Nat) (outcome : Except CallError Nat)
  /-- An attempt starts. -/
  | connect (generation : Nat)
  /-- A session is to be closed. -/
  | closeSession (generation : Nat)

/-- A connector for one address. -/
structure Connector where
  settings : ClientSettings
  phase : ConnectorPhase
  /-- The attempts since the last success. -/
  attempts : Nat
  /-- The generation of the attempt started last. -/
  lastGeneration : Nat
  isClosed : Bool
  /-- The attempts in progress. -/
  running : List ConnectAttempt
  /-- The sessions that are open. -/
  openSessions : List Nat
  /-- The sessions that have closed without the connector having been told. -/
  untold : List Nat
  deriving DecidableEq

namespace Connector

/-- A connector that has not been asked. -/
def start (settings : ClientSettings) : Connector :=
  { settings, phase := .idle, attempts := 0, lastGeneration := 0, isClosed := false
    running := [], openSessions := [], untold := [] }

/-- Makes a connector, if the settings of client and codec allow it. -/
def make? (settings : ClientSettings) (codec : CodecSettings) : Except CallError Connector :=
  match settings.problem? with
  | some p => .error (.invalidConfig p.message)
  | none =>
    match codec.problem? with
    | some p => .error (.invalidConfig p.message)
    | none => .ok (start settings)

/-- Whether the session of a generation is open. -/
def isOpen (c : Connector) (generation : Nat) : Bool := c.openSessions.contains generation

/-- The attempt of a generation, if it is in progress. -/
def attempt? (c : Connector) (generation : Nat) : Option ConnectAttempt :=
  c.running.find? (·.generation == generation)

/-- The connector with a change to the attempt of a generation. -/
def modifyAttempt (c : Connector) (generation : Nat) (f : ConnectAttempt → ConnectAttempt) :
    Connector :=
  { c with running := c.running.map fun a => if a.generation == generation then f a else a }

/-- The connector without the attempt of a generation. -/
def endAttempt (c : Connector) (generation : Nat) : Connector :=
  { c with running := c.running.filter (·.generation != generation) }

/-- Starts an attempt for a caller, or refuses when the limit is reached. -/
def startAttempt (c : Connector) (caller : Nat) : Connector × List ConnectorEffect :=
  if c.settings.maxConnectAttempts ≤ c.attempts then
    (c, [.answer caller (.error (.connectAttemptsExceeded c.attempts))])
  else
    let generation := c.lastGeneration + 1
    ({ c with
        phase := .connecting generation
        attempts := c.attempts + 1
        lastGeneration := generation
        running := c.running ++ [⟨generation, [caller], false⟩] }, [.connect generation])

/-- A caller asks for the session. -/
def request (c : Connector) (caller : Nat) : Connector × List ConnectorEffect :=
  if c.isClosed then (c, [.answer caller (.error (.alreadyClosed .connector))])
  else
    match c.phase with
    | .ready generation =>
      if c.isOpen generation then (c, [.answer caller (.ok generation)])
      else c.startAttempt caller
    | .connecting generation =>
      (c.modifyAttempt generation fun a => { a with callers := a.callers ++ [caller] }, [])
    | .idle => c.startAttempt caller

/-- An attempt in progress gets its connection, and a session is opened over it. -/
def connected (c : Connector) (generation : Nat) : Connector × List ConnectorEffect :=
  match c.attempt? generation with
  | some ⟨_, _, false⟩ =>
    ({ c.modifyAttempt generation fun a => { a with isConnected := true } with
        openSessions := c.openSessions ++ [generation] }, [])
  | _ => (c, [])

/-- An attempt that has its session ends. The session is discarded if the connector no longer waits
for this attempt. -/
def settle (c : Connector) (generation : Nat) : Connector × List ConnectorEffect :=
  match c.attempt? generation with
  | some ⟨_, callers, true⟩ =>
    if c.phase = .connecting generation ∧ !c.isClosed then
      ({ c.endAttempt generation with phase := .ready generation, attempts := 0 },
        callers.map fun caller => .answer caller (.ok generation))
    else
      (c.endAttempt generation,
        .closeSession generation ::
          callers.map fun caller => .answer caller (.error (.connection "connector closed")))
  | _ => (c, [])

/-- An attempt gets its connection and ends with its session at once. -/
def succeed (c : Connector) (generation : Nat) : Connector × List ConnectorEffect :=
  let (connected, effects) := c.connected generation
  let (settled, more) := connected.settle generation
  (settled, effects ++ more)

/-- An attempt ends without a session. -/
def fail (c : Connector) (generation : Nat) (reason : String) :
    Connector × List ConnectorEffect :=
  match c.attempt? generation with
  | some ⟨_, callers, false⟩ =>
    ({ c.endAttempt generation with
        phase := if c.phase = .connecting generation then .idle else c.phase },
      callers.map fun caller => .answer caller (.error (.connection reason)))
  | _ => (c, [])

/-- A session closes, and the connector has not been told yet. -/
def sessionShut (c : Connector) (generation : Nat) : Connector :=
  if c.isOpen generation then
    { c with
      openSessions := c.openSessions.filter (· != generation)
      untold := c.untold ++ [generation] }
  else c

/-- The connector is told that a session has closed. Only the session at hand makes it idle. -/
def told (c : Connector) (generation : Nat) : Connector :=
  if c.untold.contains generation then
    { c with
      phase := if c.phase = .ready generation then .idle else c.phase
      untold := c.untold.filter (· != generation) }
  else c

/-- A session closes, and the connector is told at once. -/
def sessionClosed (c : Connector) (generation : Nat) : Connector :=
  (c.sessionShut generation).told generation

/-- Closes the connector and has its session closed, or says that it has been closed before. -/
def close (c : Connector) : Except CallError Unit × Connector × List ConnectorEffect :=
  if c.isClosed then (.error (.alreadyClosed .connector), c, [])
  else
    (.ok (), { c with isClosed := true, phase := .idle },
      match c.phase with
      | .ready generation => [.closeSession generation]
      | _ => [])

end Connector

/-- What can happen to a connector. -/
inductive ConnectorEvent
  | request (caller : Nat)
  | connected (generation : Nat)
  | settle (generation : Nat)
  /-- An attempt gets its connection and is settled at once. -/
  | succeed (generation : Nat)
  | fail (generation : Nat) (reason : String)
  | sessionShut (generation : Nat)
  | told (generation : Nat)
  /-- A session closes, and the connector is told at once. -/
  | sessionClosed (generation : Nat)
  | close

namespace Connector

/-- One step of a connector. -/
def step (c : Connector) : ConnectorEvent → Connector × List ConnectorEffect
  | .request caller => c.request caller
  | .connected generation => c.connected generation
  | .settle generation => c.settle generation
  | .succeed generation => c.succeed generation
  | .fail generation reason => c.fail generation reason
  | .sessionShut generation => (c.sessionShut generation, [])
  | .told generation => (c.told generation, [])
  | .sessionClosed generation => (c.sessionClosed generation, [])
  | .close => c.close.2

/-- A run of steps with everything that is done outside, in order. -/
def run (c : Connector) : List ConnectorEvent → Connector × List ConnectorEffect
  | [] => (c, [])
  | e :: rest =>
    let (c, effects) := c.step e
    let (c, more) := c.run rest
    (c, effects ++ more)

end Connector

end RemoteCall
