import RemoteCall.Text.Padded

/-!
# Durations

A duration is a signed number of nanoseconds of at most 2^63 - 1 milliseconds. It is taken apart
into seconds and nanoseconds of one sign.
-/

namespace RemoteCall

/-- The largest duration in nanoseconds. -/
def Duration.limit : Int := 9223372036854775807 * 1000000

/-- A signed span of time. -/
structure Duration where
  /-- The whole span in nanoseconds. -/
  total : Int
  inRange : -Duration.limit ≤ total ∧ total ≤ Duration.limit
  deriving DecidableEq

namespace Duration

/-- The duration of so many nanoseconds, if it is not too long. -/
def ofNanos? (total : Int) : Option Duration :=
  if h : -limit ≤ total ∧ total ≤ limit then some ⟨total, h⟩ else none

/-- A duration is read back from its nanoseconds. -/
theorem ofNanos?_total (d : Duration) : ofNanos? d.total = some d := dif_pos d.inRange

/-- The sum of seconds and nanoseconds, if neither the seconds alone nor the sum is too long. -/
def ofParts? (seconds nanos : Int) : Option Duration := do
  let whole ← ofNanos? (seconds * 1000000000)
  ofNanos? (whole.total + nanos)

/-- Whole seconds, toward zero. -/
def seconds (d : Duration) : Int := d.total.tdiv 1000000000

/-- The nanoseconds beyond the whole seconds, with the sign of the duration. -/
def nanos (d : Duration) : Int := d.total.tmod 1000000000

/-- A duration is read back from its parts. -/
theorem ofParts?_parts (d : Duration) : ofParts? d.seconds d.nanos = some d := by
  have h := d.inRange
  have hs : d.seconds * 1000000000 + d.nanos = d.total := by
    unfold seconds nanos
    rw [Int.mul_comm]
    exact Int.mul_tdiv_add_tmod _ _
  have hw : -limit ≤ d.seconds * 1000000000 ∧ d.seconds * 1000000000 ≤ limit := by
    unfold seconds limit at *
    rcases Int.le_total 0 d.total with hn | hn
    · rw [Int.tdiv_eq_ediv_of_nonneg hn]
      omega
    · rw [← Int.neg_neg d.total, Int.neg_tdiv, Int.tdiv_eq_ediv_of_nonneg (by omega)]
      omega
  simp only [ofParts?, ofNanos?, dif_pos hw, Option.bind_eq_bind, Option.bind_some, hs, dif_pos h]

/-- A fraction of a second without its trailing zeros. -/
def fractionText (nanos : Nat) : String :=
  if nanos = 0 then ""
  else "." ++ String.ofList ((Text.padded 9 nanos).toList.reverse.dropWhile (· == '0')).reverse

/-- Seconds with their fraction in the notation of periods; an empty duration is zero days. -/
def text (d : Duration) : String :=
  if d.total = 0 then "P0D"
  else
    (if d.total < 0 then "-" else "") ++ s!"PT{d.total.natAbs / 1000000000}" ++
      fractionText (d.total.natAbs % 1000000000) ++ "S"

end Duration

end RemoteCall
