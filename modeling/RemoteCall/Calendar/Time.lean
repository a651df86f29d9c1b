import RemoteCall.Text.Padded

/-!
# Times of day

A time is a second of the day and nanoseconds of that second. In the last second of a minute the
nanoseconds may run on through a leap second.
-/

namespace RemoteCall

/-- The nanoseconds that may follow a second: fewer than 10^9, or fewer than 2 * 10^9 in the last
second of a minute. -/
def ValidNanos (seconds nanos : Nat) : Prop :=
  nanos < 1000000000 ∨ (nanos < 2000000000 ∧ seconds % 60 = 59)

instance (seconds nanos : Nat) : Decidable (ValidNanos seconds nanos) :=
  inferInstanceAs (Decidable (_ ∨ _))

/-- A time of day. -/
structure Time where
  /-- Seconds since midnight. -/
  seconds : Nat
  /-- Nanoseconds of that second, or of that second and the leap second after it. -/
  nanos : Nat
  seconds_lt : seconds < 86400
  validNanos : ValidNanos seconds nanos
  deriving DecidableEq

namespace Time

/-- The time with these seconds and nanoseconds, if there is one. -/
def ofParts? (seconds nanos : Nat) : Option Time :=
  if h : seconds < 86400 ∧ ValidNanos seconds nanos then some ⟨seconds, nanos, h.1, h.2⟩ else none

/-- A time is read back from its parts. -/
theorem ofParts?_parts (t : Time) : ofParts? t.seconds t.nanos = some t :=
  dif_pos ⟨t.seconds_lt, t.validNanos⟩

/-- The order within a day. -/
def compare (a b : Time) : Ordering :=
  (Ord.compare a.seconds b.seconds).then (Ord.compare a.nanos b.nanos)

/-- A fraction of a second: nothing, or a point and the least of three, six and nine digits that
is exact. -/
def fractionText (nanos : Nat) : String :=
  if nanos = 0 then ""
  else if nanos % 1000000 = 0 then "." ++ Text.padded 3 (nanos / 1000000)
  else if nanos % 1000 = 0 then "." ++ Text.padded 6 (nanos / 1000)
  else "." ++ Text.padded 9 nanos

/-- Hours, minutes and seconds, and the fraction. A leap second is shown as second 60. -/
def text (t : Time) : String :=
  let leap := t.nanos / 1000000000
  Text.padded 2 (t.seconds / 3600) ++ ":" ++ Text.padded 2 (t.seconds / 60 % 60) ++ ":" ++
    Text.padded 2 (t.seconds % 60 + leap) ++ fractionText (t.nanos % 1000000000)

end Time

end RemoteCall
