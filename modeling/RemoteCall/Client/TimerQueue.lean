/-!
# Timer queues

Timers leave a queue in the order of their deadlines, which are milliseconds. What is left to say
is which of several timers with one deadline leaves first.

Timers wait on a wheel of six levels. A slot of level `k` spans `64 ^ k` milliseconds, and a timer
stands on the lowest level on which its slot is not the one that the wheel has reached. A slot is
a stack. When the wheel reaches a slot above the lowest level, its timers are stacked anew one
level below, which turns them over. So a timer that is put in on an even level leaves before those
of its deadline that are there already, and one that is put in on an odd level leaves after them.
The queue keeps its timers in the order in which they leave and never builds the wheel; it only
has to know how far the wheel has come. The wheel does not follow the clock: it moves when it is
woken, first at the earliest deadline, then slot by slot.
-/

namespace RemoteCall

/-- A task that waits for its deadline. -/
structure Timer (τ : Type) where
  /-- The deadline in milliseconds. -/
  due : Nat
  task : τ

/-- Timers that wait for their deadlines. -/
structure TimerQueue (τ : Type) where
  /-- The millisecond that the wheel has reached. -/
  reached : Nat
  /-- The millisecond at which the wheel is woken next. -/
  wake : Option Nat
  /-- The timers in the order in which they leave. -/
  timers : List (Timer τ)

namespace TimerQueue

/-- A queue without timers, whose wheel has not moved. -/
def empty : TimerQueue τ := ⟨0, none, []⟩

/-- The farthest that a deadline may lie ahead of the wheel: one turn of its highest level. -/
def maxDelay : Nat := 68719476735

/-- The level of a deadline on a wheel that has reached a millisecond; those beyond one turn of
the wheel stand on the highest one. -/
def level (reached due : Nat) : Nat := min 5 (((reached ^^^ due) ||| 63).log2 / 6)

/-- The millisecond at which the slot of a level starts. -/
def slotStart (level millis : Nat) : Nat := (millis >>> (6 * level)) <<< (6 * level)

/-- When the wheel comes to the slot of a deadline. -/
def slotOf (reached due : Nat) : Nat := slotStart (level reached due) due

/-- Timers in order with one more, before or behind the others of its deadline. -/
def insertTimer (isFirst : Bool) (t : Timer τ) : List (Timer τ) → List (Timer τ)
  | [] => [t]
  | u :: rest =>
    if u.due < t.due || (u.due == t.due && !isFirst) then u :: insertTimer isFirst t rest
    else t :: u :: rest

/-- Puts a task in, unless its deadline is too far ahead. A deadline that the wheel has passed
counts as the point that it has reached. -/
def insert? (q : TimerQueue τ) (deadline : Nat) (task : τ) : Option (TimerQueue τ) :=
  let due := max deadline q.reached
  if maxDelay < due - q.reached then none
  else some {
    q with
    wake := some (match q.wake with | some w => min w due | none => due)
    timers := insertTimer (level q.reached due % 2 == 0) ⟨due, task⟩ q.timers }

/-- The wheel after timers have left it. A timer leaves from the lowest level, so the wheel has
come to the start of the slot above. A timer at the point that the wheel has reached moves it no
further. -/
def passed (q : TimerQueue τ) (left : List (Timer τ)) : TimerQueue τ :=
  match (left.filter fun t => q.reached < t.due).getLast? with
  | none => q
  | some t => { q with reached := max q.reached (slotStart 1 t.due), wake := none }

/-- The wheel moves on to the last slot on the way to a deadline that starts no later than now,
and is woken again at the next one. -/
def turn (q : TimerQueue τ) (now due : Nat) : TimerQueue τ :=
  let reached :=
    if slotOf q.reached due ≤ now then slotStart (level now due + 1) now else q.reached
  { q with reached, wake := some (slotOf reached due) }

/-- The tasks that are due at a millisecond, and the queue without them. -/
def poll (q : TimerQueue τ) (now : Nat) : List τ × TimerQueue τ :=
  let left := q.timers.takeWhile (·.due ≤ now)
  let waiting := q.timers.dropWhile (·.due ≤ now)
  let q := { q.passed left with timers := waiting }
  (left.map (·.task),
    match waiting with
    | [] => q
    | t :: _ => if q.wake.any (now < ·) then q else q.turn now t.due)

end TimerQueue

end RemoteCall
