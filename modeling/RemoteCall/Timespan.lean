/-!
# Spans of time

Settings give times as spans: whole seconds that fit a 64-bit word, and nanoseconds.
-/

namespace RemoteCall

/-- A span of time that is not negative. -/
structure Timespan where
  /-- The whole span in nanoseconds. -/
  nanos : Nat
  deriving DecidableEq

namespace Timespan

/-- A span of whole seconds. -/
def ofSeconds (seconds : Nat) : Timespan := ⟨seconds * 1000000000⟩

/-- A span of whole milliseconds. -/
def ofMillis (millis : Nat) : Timespan := ⟨millis * 1000000⟩

/-- The whole seconds of a span. -/
def seconds (t : Timespan) : Nat := t.nanos / 1000000000

/-- The nanoseconds beyond the whole seconds. -/
def subNanos (t : Timespan) : Nat := t.nanos % 1000000000

/-- The whole milliseconds of a span, as a 64-bit word. -/
def millis (t : Timespan) : Nat := t.nanos / 1000000 % UInt64.size

/-- The span of seconds and nanoseconds; these may carry into the seconds as long as they fit. -/
def ofParts? (seconds nanos : Nat) : Option Timespan :=
  let t : Timespan := ⟨seconds * 1000000000 + nanos⟩
  if t.seconds < UInt64.size then some t else none

/-- Whether the span is empty. -/
def isZero (t : Timespan) : Bool := t.nanos == 0

end Timespan

end RemoteCall
