import RemoteCall.Client.TimerQueue

/-!
# Scheduler

A scheduler runs each task once its delay has passed. A deadline is rounded up to a millisecond,
and tasks that are due run in the order of the timer queue. A stopped scheduler drops what is
pending and takes nothing more. A delay that the queue cannot hold stops the scheduler, though the
task has been taken.
-/

namespace RemoteCall

/-- A scheduler of tasks. -/
structure Scheduler (τ : Type) where
  isRunning : Bool
  /-- The clock, in nanoseconds since the scheduler was started. -/
  now : Nat
  /-- The pending tasks. -/
  queue : TimerQueue τ

/-- What can happen to a scheduler. -/
inductive SchedulerEvent (τ : Type)
  /-- A task is to run after a delay in nanoseconds, whichever handle asks for it. -/
  | schedule (delay : Nat) (task : τ)
  /-- The clock moves by so many nanoseconds. -/
  | advance (nanos : Nat)
  /-- The scheduler stops, because its owner shuts it down or goes. -/
  | stop

namespace Scheduler

/-- A scheduler that has just been started. -/
def start : Scheduler τ := ⟨true, 0, .empty⟩

/-- The first millisecond at or after a point of the clock. -/
def roundUp (nanos : Nat) : Nat := (nanos + 999999) / 1000000

/-- Stops the scheduler. -/
def shutdown (s : Scheduler τ) : Scheduler τ := { s with isRunning := false, queue := .empty }

/-- Schedules a task after a delay in nanoseconds; a stopped scheduler refuses it. -/
def schedule (s : Scheduler τ) (delay : Nat) (task : τ) : Bool × Scheduler τ :=
  if s.isRunning then
    match s.queue.insert? (roundUp (s.now + delay)) task with
    | some queue => (true, { s with queue })
    | none => (true, s.shutdown)
  else (false, s)

/-- Moves the clock by so many nanoseconds and gives the tasks that run. -/
def advance (s : Scheduler τ) (nanos : Nat) : List τ × Scheduler τ :=
  let now := s.now + nanos
  let (due, queue) := s.queue.poll (now / 1000000)
  (due, { s with now, queue })

/-- What an event does to a scheduler, with the tasks that run. -/
def step (s : Scheduler τ) : SchedulerEvent τ → List τ × Scheduler τ
  | .schedule delay task => ([], (s.schedule delay task).2)
  | .advance nanos => s.advance nanos
  | .stop => ([], s.shutdown)

/-- A run of events with the tasks that run, in order, each with the moment of the clock at which
it does. -/
def run (s : Scheduler τ) : List (SchedulerEvent τ) → List (Nat × τ) × Scheduler τ
  | [] => ([], s)
  | e :: rest =>
    let (tasks, s) := s.step e
    let (more, later) := s.run rest
    (tasks.map (fun task => (s.now, task)) ++ more, later)

end Scheduler

end RemoteCall
