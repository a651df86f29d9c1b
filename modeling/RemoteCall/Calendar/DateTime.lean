import RemoteCall.Calendar.Date
import RemoteCall.Calendar.Time

/-!
# Local date-times and instants

A local date-time is a date and a time of day. An instant is a local date-time of the zero
meridian; on the wire it is given as seconds since the start of 1970.
-/

namespace RemoteCall

/-- A date and a time of day. -/
structure DateTime where
  date : Date
  time : Time
  deriving DecidableEq

namespace DateTime

/-- Earlier dates first, on one date earlier times first. -/
def compare (a b : DateTime) : Ordering :=
  (Ord.compare a.date.days b.date.days).then (a.time.compare b.time)

/-- Date and time with a blank between them. -/
def text (d : DateTime) : String := d.date.text ++ " " ++ d.time.text

end DateTime

/-- A point in time, as the date and time of day at the zero meridian. -/
structure Instant where
  utc : DateTime
  deriving DecidableEq

namespace Instant

/-- The day number of 1970-01-01. -/
def epochDay : Int := 719163

/-- The instant so many seconds after the start of 1970, if the calendar reaches it. -/
def ofUnix? (seconds : Int) (nanos : Nat) : Option Instant := do
  let date ← Date.ofDays? (Int.fdiv seconds 86400 + epochDay)
  let time ← Time.ofParts? (Int.fmod seconds 86400).toNat nanos
  return ⟨⟨date, time⟩⟩

/-- Whole seconds since the start of 1970. -/
def unixSeconds (i : Instant) : Int := (i.utc.date.days - epochDay) * 86400 + i.utc.time.seconds

/-- Nanoseconds of the second. -/
def nanos (i : Instant) : Nat := i.utc.time.nanos

/-- An instant is read back from its seconds and nanoseconds. -/
theorem ofUnix?_unixSeconds (i : Instant) : ofUnix? i.unixSeconds i.nanos = some i := by
  obtain ⟨⟨date, time⟩⟩ := i
  have hs := time.seconds_lt
  have hd : Int.fdiv ((date.days - epochDay) * 86400 + time.seconds) 86400 + epochDay =
      date.days := by
    rw [Int.fdiv_eq_ediv_of_nonneg _ (by decide)]
    omega
  have ht : (Int.fmod ((date.days - epochDay) * 86400 + time.seconds) 86400).toNat =
      time.seconds := by
    rw [Int.fmod_eq_emod_of_nonneg _ (by decide)]
    omega
  simp only [ofUnix?, unixSeconds, nanos, hd, ht, Date.ofDays?_days, Time.ofParts?_parts]
  rfl

/-- Date and time joined by a letter, and the zero offset. -/
def text (i : Instant) : String := i.utc.date.text ++ "T" ++ i.utc.time.text ++ "+00:00"

end Instant

end RemoteCall
