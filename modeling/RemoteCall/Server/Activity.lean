import RemoteCall.Timespan

/-!
# Activity of a connection

How long a connection has been idle: since the last response was written, or since it was accepted
if none has been. It counts as idle only with no request in flight.
-/

namespace RemoteCall

/-- A moment of a server's run. -/
structure Moment where
  /-- Nanoseconds since the server started. -/
  ticks : Nat
  /-- Milliseconds since the start of 1970. -/
  timestamp : Int64
  deriving DecidableEq

namespace Moment

/-- The moment so many nanoseconds later. -/
def later (t : Moment) (nanos : Nat) : Moment :=
  ⟨t.ticks + nanos, t.timestamp + Int64.ofNat ((t.ticks + nanos) / 1000000 - t.ticks / 1000000)⟩

end Moment

/-- What the search for idle connections looks at. -/
structure Activity where
  /-- When the last response was written, in nanoseconds since the server started. -/
  lastResponse : Nat
  /-- How many requests are in flight. -/
  inFlight : Nat
  deriving DecidableEq

namespace Activity

/-- A connection that is accepted at a moment. -/
def start (now : Moment) : Activity := ⟨now.ticks, 0⟩

/-- A response has been written. -/
def touch (a : Activity) (now : Moment) : Activity := { a with lastResponse := now.ticks }

/-- How long no response has been written. -/
def idleFor (a : Activity) (now : Moment) : Timespan := ⟨now.ticks - a.lastResponse⟩

/-- Whether nothing is in flight and no response has been written for so long. -/
def isIdle (a : Activity) (now : Moment) (keepAlive : Timespan) : Bool :=
  a.inFlight == 0 && keepAlive.nanos ≤ (a.idleFor now).nanos

end Activity

end RemoteCall
