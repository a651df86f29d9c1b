import RemoteCall.Client.Scheduler
import RemoteCall.Client.Session

/-!
# Sessions on a clock

A session together with the scheduler of its timers. Whatever the session arms is scheduled, and
when the clock moves the tasks that run expire their calls. If the scheduler has stopped, a call
waits for its response without limit.
-/

namespace RemoteCall

/-- The timer of a call: its request id and generation. -/
structure CallTimer where
  requestId : UInt64
  generation : Nat
  deriving DecidableEq

/-- A session and the scheduler of its timers. -/
structure TimedSession where
  session : Session
  scheduler : Scheduler CallTimer

/-- Whether an event is the end of a timer. -/
def SessionEvent.isExpiry : SessionEvent → Bool
  | expire _ _ => true
  | _ => false

/-- What can happen to a session on a clock. Timers end when the clock moves and at no other
time. -/
inductive TimedEvent
  | happen (e : SessionEvent) (external : e.isExpiry = false)
  | advance (nanos : Nat)
  | stopScheduler

namespace TimedSession

/-- A session over a fresh connection, with its own clock. -/
def start (settings : ClientSettings) (codec : CodecSettings) : TimedSession :=
  ⟨.start settings codec, .start⟩

/-- Arms a timer. -/
def arm (t : TimedSession) : SessionEffect → TimedSession
  | .arm requestId generation =>
    let delay := t.session.settings.callTimeout.nanos
    { t with scheduler := (t.scheduler.schedule delay ⟨requestId, generation⟩).2 }
  | _ => t

/-- A step of the session, with its timers armed. -/
def step (t : TimedSession) (e : SessionEvent) : TimedSession × List SessionEffect :=
  let (session, effects) := t.session.step e
  (effects.foldl arm { t with session }, effects)

/-- Steps of the session one after the other. -/
def steps (t : TimedSession) : List SessionEvent → TimedSession × List SessionEffect
  | [] => (t, [])
  | e :: rest =>
    let (t, effects) := t.step e
    let (t, more) := t.steps rest
    (t, effects ++ more)

/-- The clock moves by so many nanoseconds. -/
def advance (t : TimedSession) (nanos : Nat) : TimedSession × List SessionEffect :=
  let (due, scheduler) := t.scheduler.advance nanos
  { t with scheduler }.steps
    (due.map fun (timer : CallTimer) => .expire timer.requestId timer.generation)

/-- The scheduler stops. -/
def stopScheduler (t : TimedSession) : TimedSession :=
  { t with scheduler := t.scheduler.shutdown }

/-- Writes everything that has been accepted; nothing more once the session has closed. -/
def flush (t : TimedSession) : TimedSession × List SessionEffect :=
  if t.session.isClosed then ({ t with session := t.session.stopWriting }, [])
  else t.steps (List.replicate t.session.outbound.length .writeNext)

/-- A step of the session, after which everything that can be written is written. -/
def perform (t : TimedSession) (e : SessionEvent) : TimedSession × List SessionEffect :=
  let (t, effects) := t.step e
  let (t, more) := t.flush
  (t, effects ++ more)

/-- What an event does to a session on a clock. -/
def act (t : TimedSession) : TimedEvent → TimedSession × List SessionEffect
  | .happen e _ => t.step e
  | .advance nanos => t.advance nanos
  | .stopScheduler => (t.stopScheduler, [])

/-- A run of events with everything that is done outside, in order, each with the moment of the
clock at which it is done. -/
def run (t : TimedSession) : List TimedEvent → TimedSession × List (Nat × SessionEffect)
  | [] => (t, [])
  | e :: rest =>
    let (t, effects) := t.act e
    let (later, more) := t.run rest
    (later, effects.map (fun effect => (t.scheduler.now, effect)) ++ more)

end TimedSession

end RemoteCall
