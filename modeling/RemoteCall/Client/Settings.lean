import RemoteCall.Frame
import RemoteCall.Timespan

/-!
# Client settings

What a connector and its sessions are told: how long to wait for a connection and for a response,
how often to try to connect, and how large a frame body may be.
-/

namespace RemoteCall

/-- Settings of a connector and its sessions. -/
structure ClientSettings where
  connectTimeout : Timespan
  /-- How long a call waits for its response after its request has been written. -/
  callTimeout : Timespan
  /-- How many attempts may be made without a success in between. -/
  maxConnectAttempts : Nat
  /-- The longest frame body that is sent or accepted. -/
  maxFrameSize : Nat
  deriving DecidableEq

/-- Why client settings are refused. -/
inductive ClientSettings.Problem
  | zeroConnectTimeout
  | zeroCallTimeout
  | noAttempts
  | frameSize (given : Nat)
  deriving DecidableEq

namespace ClientSettings

/-- Five seconds for either timeout, ten attempts, and the standard limit on frames. -/
def standard : ClientSettings := ⟨.ofSeconds 5, .ofSeconds 5, 10, Frame.standardLimit⟩

/-- The wording of a refusal. -/
def Problem.message : Problem → String
  | zeroConnectTimeout => "connect timeout must be greater than zero"
  | zeroCallTimeout => "call timeout must be greater than zero"
  | noAttempts => "max connect attempts must be at least 1"
  | frameSize given => Frame.limitMessage given

/-- The first problem of the settings. -/
def problem? (s : ClientSettings) : Option Problem :=
  if s.connectTimeout.isZero then some .zeroConnectTimeout
  else if s.callTimeout.isZero then some .zeroCallTimeout
  else if s.maxConnectAttempts = 0 then some .noAttempts
  else if Frame.isLimit s.maxFrameSize then none
  else some (.frameSize s.maxFrameSize)

end ClientSettings

end RemoteCall
