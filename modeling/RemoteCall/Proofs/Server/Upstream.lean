import RemoteCall.Proofs.Server.Steps
import RemoteCall.Proofs.Wire.StreamEnd

/-!
# What a connection has read

A connection hands the bytes that arrive to its frame reader and asks it for frames; whatever else
happens leaves the reader alone. So while a connection is open its reader stands where the bytes
that have arrived have brought it, and the end of the stream is told as this reader tells it.
Reading on behind the end of the stream brings every connection to its end.
-/

namespace RemoteCall

variable {m : Type → Type}

namespace ConnectionEvent

/-- The bytes that an event brings from the peer. -/
def bytes : ConnectionEvent → List UInt8
  | .receive bytes => bytes
  | _ => []

/-- The reader of an open connection after an event. -/
def reads (r : FrameReader) : ConnectionEvent → FrameReader
  | .receive bytes => r.feed bytes
  | .read _ => r.next.2
  | _ => r

end ConnectionEvent

namespace Connection

/-- The bytes that events bring from the peer, in order. -/
def arrived (events : List (Moment × ConnectionEvent)) : List UInt8 :=
  events.flatMap fun event => event.2.bytes

variable {d : Dispatcher m} {now : Moment} {c : Connection} {e : ConnectionEvent} {limit : Nat}
  {stream : List UInt8} {bodies : List (List UInt8)}

/-- A response leaves the reader alone. -/
theorem reader_respond (d : Dispatcher m) (now : Moment) (c : Connection) (r : Response) :
    (c.respond d now r).1.reader = c.reader := by
  rcases respond_cases d now c r with ⟨bytes, hrespond⟩ | ⟨cause, hrespond⟩
  · rw [hrespond]
  · rw [hrespond]
    rfl

/-- A request leaves the reader alone that it has come from. -/
theorem reader_enter (d : Dispatcher m) (now : Moment) (c : Connection) (r : Request) :
    (c.enter d now r).1.reader = c.reader := by
  unfold enter
  split
  · exact reader_respond d now c _
  · split
    · exact reader_respond d now c _
    · rfl

/-- The search for a frame goes on with the reader as far as it has come. -/
theorem reader_read {atEnd : Bool} (hopen : (c.read d now atEnd).1.ending = none) :
    (c.read d now atEnd).1.reader = c.reader.next.2 ∧ ∃ answer, c.reader.next.1 = .ok answer := by
  unfold read at hopen ⊢
  rcases hnext : c.reader.next with ⟨answer, reader⟩
  rw [hnext] at hopen
  cases answer with
  | error e => cases hopen
  | ok frame =>
    refine ⟨?_, frame, rfl⟩
    cases frame with
    | none =>
      dsimp only at hopen ⊢
      cases atEnd with
      | false => rfl
      | true =>
        rw [if_pos rfl] at hopen
        cases hfinish : reader.finish with
        | clean => rfl
        | broken cause =>
          rw [hfinish] at hopen
          cases hopen
    | some body =>
      dsimp only at hopen ⊢
      cases hr : d.codec.decodeRequest body with
      | error e =>
        rw [hr] at hopen
        cases hopen
      | ok r => exact reader_enter d now _ r

/-- Only bytes that arrive and the search for a frame touch the reader of an open connection. -/
theorem reader_step (hended : c.isEnded = false) (hopen : (c.step d now e).1.ending = none) :
    (c.step d now e).1.reader = e.reads c.reader := by
  unfold step at hopen ⊢
  rw [hended, if_neg Bool.false_ne_true] at hopen ⊢
  cases e with
  | receive bytes => rfl
  | read atEnd => exact (reader_read hopen).1
  | readFailed reason => cases hopen
  | handled ticket outcome =>
    dsimp only
    cases c.invocation? ticket with
    | none => rfl
    | some i =>
      dsimp only
      split
      · exact reader_respond d now _ _
      · rfl
  | unbound ticket =>
    dsimp only
    cases c.invocation? ticket with
    | none => rfl
    | some i =>
      dsimp only
      split
      · rfl
      · exact reader_respond d now _ _
  | closing => rfl
  | close =>
    dsimp only
    split
    · rfl
    · rfl

/-- After a step of an open connection its reader stands behind the bytes that have arrived. -/
theorem reached_step (h : FrameReader.Reached limit stream (bodies.map .ok) c.reader)
    (hended : c.isEnded = false) (hopen : (c.step d now e).1.ending = none) :
    ∃ later : List (List UInt8), FrameReader.Reached limit (stream ++ e.bytes) (later.map .ok)
      (c.step d now e).1.reader := by
  rw [reader_step hended hopen]
  cases e with
  | receive bytes => exact ⟨bodies, h.feed bytes⟩
  | read atEnd =>
    rw [step, hended, if_neg Bool.false_ne_true] at hopen
    obtain ⟨answer, hnext⟩ := (reader_read hopen).2
    have hread := h.next hnext
    rw [← List.append_nil stream] at hread
    exact ⟨_, hread⟩
  | _ =>
    rw [← List.append_nil stream] at h
    exact ⟨bodies, h⟩

/-- While a connection is open its reader stands behind the bytes that have arrived. -/
theorem reached_run (h : FrameReader.Reached limit stream (bodies.map .ok) c.reader)
    {events : List (Moment × ConnectionEvent)} (hopen : (c.run d events).1.ending = none) :
    ∃ later : List (List UInt8), FrameReader.Reached limit (stream ++ arrived events)
      (later.map .ok) (c.run d events).1.reader := by
  induction events generalizing c stream bodies with
  | nil =>
    rw [← List.append_nil stream] at h
    exact ⟨bodies, h⟩
  | cons event rest ih =>
    obtain ⟨now, e⟩ := event
    have hended : c.isEnded = false := congrArg Option.isSome (ending_of_run hopen)
    have hrun : ((c.step d now e).1.run d rest).1.ending = none := hopen
    have hmid : (c.step d now e).1.ending = none := ending_of_run hrun
    obtain ⟨later, hlater⟩ := reached_step h hended hmid
    have hrest := ih hlater hopen
    rwa [List.append_assoc] at hrest

/-- A search behind the end of the stream that finds no frame ends the connection as its reader
tells the end. -/
theorem step_read_atEnd (now : Moment) (hended : c.isEnded = false)
    (hnone : c.reader.next.1 = .ok none) :
    c.step d now (.read true) =
      match c.reader.next.2.finish with
      | .clean => ({ c with reader := c.reader.next.2 } : Connection).finish .clean
      | .broken cause => ({ c with reader := c.reader.next.2 } : Connection).fail d now cause := by
  rw [step, hended, if_neg Bool.false_ne_true]
  simp only [read]
  rcases hnext : c.reader.next with ⟨answer, reader⟩
  obtain rfl : answer = .ok none := (congrArg Prod.fst hnext).symm.trans hnone
  rfl

/-- On a stream that is cut at some place the connection ends without a word if the cut is between
two frames or right behind a header; anywhere else it fails because bytes are left over. -/
theorem run_read_of_cutAt {count : Nat} (now opened : Moment)
    {events : List (Moment × ConnectionEvent)} (hcut : Frame.CutAt limit (arrived events) count)
    (hopen : ((start limit opened).run d events).1.isEnded = false)
    (hnone : ((start limit opened).run d events).1.reader.next.1 = .ok none) :
    ∃ reader, ((start limit opened).run d events).1.step d now (.read true) =
      if count = 0 ∨ count = Frame.headerLength then
        ({ ((start limit opened).run d events).1 with reader } : Connection).finish .clean
      else
        ({ ((start limit opened).run d events).1 with reader } : Connection).fail d now
          FrameReader.leftover := by
  have hstart : FrameReader.Reached limit [] (([] : List (List UInt8)).map .ok)
      (start limit opened).reader := .atStart limit
  obtain ⟨bodies, hreached⟩ := reached_run hstart (ending_of_open hopen)
  rw [List.nil_append] at hreached
  generalize ((start limit opened).run d events).1 = c at *
  have hsettled : c.reader.next.2.Settled := by
    rcases c.reader.next_span_or_settled with ⟨⟨body, hbody⟩, -⟩ | ⟨-, hsettled⟩
    · cases hnone.symm.trans hbody
    · exact hsettled
  have hfinish := (hreached.next hnone).finish_of_cutAt hsettled hcut
  refine ⟨c.reader.next.2, ?_⟩
  rw [step_read_atEnd now hopen hnone, hfinish]
  by_cases hplace : count = 0 ∨ count = Frame.headerLength
  · rw [if_pos hplace, if_pos hplace]
  · rw [if_neg hplace, if_neg hplace]

/-- A search behind the end of the stream ends the connection, or there is less to be found. -/
theorem ends_or_span_read (d : Dispatcher m) (now : Moment) (hended : c.isEnded = false) :
    (c.step d now (.read true)).1.isEnded = true ∨
      (c.step d now (.read true)).1.reader.span < c.reader.span := by
  cases hopen : (c.step d now (.read true)).1.ending with
  | some how => exact .inl (congrArg Option.isSome hopen)
  | none =>
    rcases c.reader.next_span_or_settled with ⟨-, hspan⟩ | ⟨hnot, -⟩
    · rw [reader_step hended hopen]
      exact .inr hspan
    · have hread := hopen
      rw [step, hended, if_neg Bool.false_ne_true] at hread
      obtain ⟨answer, hnext⟩ := (reader_read hread).2
      cases answer with
      | some body => exact absurd hnext (hnot body)
      | none =>
        rw [step_read_atEnd now hended hnext] at hopen
        split at hopen
        · cases hopen
        · cases hopen

/-- Searching on behind the end of the stream ends every connection. -/
theorem isEnded_run_reads (d : Dispatcher m) (c : Connection) {moments : List Moment}
    (hmany : c.reader.span ≤ moments.length) :
    (c.run d (moments.map fun now => (now, .read true))).1.isEnded = true := by
  induction moments generalizing c with
  | nil =>
    have hpos : 0 < c.reader.span := by
      unfold FrameReader.span
      split
      · exact Nat.succ_pos _
      · exact Nat.succ_pos _
    rw [List.length_nil] at hmany
    omega
  | cons now rest ih =>
    change ((c.step d now (.read true)).1.run d (rest.map fun now => (now, .read true))).1.isEnded =
      true
    cases hended : c.isEnded with
    | true =>
      rw [step_of_ended hended, run_of_ended hended]
      exact hended
    | false =>
      rcases ends_or_span_read d now hended with hends | hspan
      · rw [run_of_ended hends]
        exact hends
      · refine ih _ ?_
        rw [List.length_cons] at hmany
        omega

end Connection

end RemoteCall
