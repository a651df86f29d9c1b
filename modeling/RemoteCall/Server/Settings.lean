import RemoteCall.Frame
import RemoteCall.Timespan

/-!
# Server settings

What a server is told: how long a connection may stay idle, how often idle connections are looked
for, and how large a frame body may be.
-/

namespace RemoteCall

/-- Settings of a server and its connections. -/
structure ServerSettings where
  /-- How long a connection may be idle; without a span it may be so for ever. -/
  keepAlive : Timespan
  /-- The time between two scans for idle connections. -/
  scanInterval : Timespan
  /-- The longest frame body that is sent or accepted. -/
  maxFrameSize : Nat
  deriving DecidableEq

/-- Why server settings are refused. -/
inductive ServerSettings.Problem
  | zeroScanInterval
  | frameSize (given : Nat)
  deriving DecidableEq

namespace ServerSettings

/-- Two minutes of idleness, a scan every five seconds, and the standard limit on frames. -/
def standard : ServerSettings := ⟨.ofSeconds 120, .ofSeconds 5, Frame.standardLimit⟩

/-- Whether idle connections are closed at all. -/
def isReaping (s : ServerSettings) : Bool := !s.keepAlive.isZero

/-- The wording of a refusal. -/
def Problem.message : Problem → String
  | zeroScanInterval => "scan interval must be greater than zero"
  | frameSize given => Frame.limitMessage given

/-- The first problem of the settings. -/
def problem? (s : ServerSettings) : Option Problem :=
  if s.isReaping && s.scanInterval.isZero then some .zeroScanInterval
  else if Frame.isLimit s.maxFrameSize then none
  else some (.frameSize s.maxFrameSize)

end ServerSettings

end RemoteCall
