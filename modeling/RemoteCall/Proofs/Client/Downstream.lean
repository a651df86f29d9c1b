import RemoteCall.Proofs.Client.Closing
import RemoteCall.Proofs.Wire.StreamEnd

/-!
# What a session has read

A session takes all frames out of its reader whenever bytes arrive, and nothing else touches the
reader. So while a session is open its reader stands where the bytes that have arrived have brought
it, with no frame left in it, and the end of the stream is told as this reader tells it.
-/

namespace RemoteCall

namespace SessionEvent

/-- The bytes that an event brings from the peer. -/
def bytes : SessionEvent → List UInt8
  | .receive bytes => bytes
  | _ => []

/-- The reader of an open session after an event. -/
def reads (r : FrameReader) : SessionEvent → FrameReader
  | .receive bytes => (r.feed bytes).drain.2.2
  | _ => r

end SessionEvent

namespace Session

/-- The bytes that events bring from the peer, in order. -/
def arrived (events : List SessionEvent) : List UInt8 := events.flatMap SessionEvent.bytes

variable {s : Session} {e : SessionEvent} {limit : Nat} {stream : List UInt8}
  {bodies : List (List UInt8)}

/-- Ending a call leaves the reader alone. -/
theorem reader_settle (s : Session) (id : UInt64) (generation : Nat) (outcome : CallOutcome) :
    (s.settle id generation outcome).1.reader = s.reader := by
  unfold settle
  split
  · split
    · rfl
    · rfl
  · rfl

/-- Taking a slot leaves the reader alone. -/
theorem reader_enter (s : Session) (caller : Nat) (r : Request) :
    (s.enter caller r).1.reader = s.reader := by
  unfold enter
  split
  · rfl
  · rfl

/-- Handing over a request leaves the reader alone. -/
theorem reader_queue (s : Session) (generation : Nat) :
    (s.queue generation).1.reader = s.reader := by
  unfold queue
  split
  · rfl
  · dsimp only
    split
    · rfl
    · exact reader_settle _ _ _ _

/-- Closing leaves the reader alone. -/
theorem reader_teardown (s : Session) (cause : CallError) :
    (s.teardown cause).1.reader = s.reader := by
  unfold teardown
  split
  · rfl
  · rfl

/-- Frames that have been taken leave the reader alone. -/
theorem reader_acceptBodies (s : Session) (bodies : List (List UInt8)) :
    (s.acceptBodies bodies).1.reader = s.reader := by
  have haccept (s : Session) (body : List UInt8) : (s.acceptBody body).1.reader = s.reader := by
    unfold acceptBody deliver
    split
    · rfl
    · split
      · split
        · rfl
        · rfl
      · exact reader_teardown s _
  induction bodies generalizing s with
  | nil => rfl
  | cons body rest ih => exact (ih (s.acceptBody body).1).trans (haccept s body)

/-- Only bytes that arrive touch the reader of an open session. -/
theorem reader_step (hopen : s.isClosed = false) (e : SessionEvent) :
    (s.step e).1.reader = e.reads s.reader := by
  cases e with
  | call caller r => exact (reader_queue _ _).trans (reader_enter s caller r)
  | enter caller r => exact reader_enter s caller r
  | queue generation => exact reader_queue s generation
  | writeNext =>
    rw [step, writeNext]
    split
    · rfl
    · rfl
  | writeFailed reason =>
    rw [step, writeFailed]
    split
    · exact (reader_teardown _ _).trans (reader_settle s _ _ _)
    · rfl
  | stopWriting =>
    rw [step, stopWriting]
    split
    · rfl
    · rfl
  | receive bytes =>
    rw [step, receive, hopen, if_neg Bool.false_ne_true]
    dsimp only
    split
    · exact reader_acceptBodies _ _
    · exact (reader_teardown _ _).trans (reader_acceptBodies _ _)
  | peerClosed =>
    rw [step, peerClosed]
    split
    · exact reader_teardown s _
    · exact reader_teardown s _
  | readFailed reason => exact reader_teardown s _
  | expire requestId generation => exact reader_settle s _ _ _
  | close =>
    rw [step, close, hopen, if_neg Bool.false_ne_true]
    exact reader_teardown s _
  | drop => exact reader_teardown s _

/-- Bytes that leave a session open bring no bad frame. -/
theorem failure_of_receive_open {bytes : List UInt8} (hopen : s.isClosed = false)
    (hafter : (s.step (.receive bytes)).1.isClosed = false) :
    (s.reader.feed bytes).drain.2.1 = none := by
  cases hcause : s.closeCause? (.receive bytes) with
  | none => exact (Option.or_eq_none_iff.mp hcause).2
  | some cause =>
    have hreason := (closes_of_cause hopen hcause).reason
    rw [isClosed, hreason] at hafter
    cases hafter

/-- What is known of the reader of an open session: it stands behind the bytes that have arrived,
and no frame is left in it. -/
structure Reads (limit : Nat) (stream : List UInt8) (bodies : List (List UInt8)) (s : Session) :
    Prop where
  reached : FrameReader.Reached limit stream (bodies.map .ok) s.reader
  settled : s.reader.Settled

/-- A session begins with a reader at the start of a stream. -/
theorem Reads.start (settings : ClientSettings) (codec : CodecSettings) :
    Reads settings.maxFrameSize [] [] (.start settings codec) where
  reached := .atStart settings.maxFrameSize
  settled := by
    have hshort : ([] : List UInt8).length < Frame.headerLength := Nat.succ_pos 5
    exact Frame.parse_of_short hshort

/-- A step that leaves a session open keeps its reader behind the bytes that have arrived. -/
theorem Reads.step (h : Reads limit stream bodies s) (hopen : s.isClosed = false)
    (hafter : (s.step e).1.isClosed = false) :
    ∃ later, Reads limit (stream ++ e.bytes) later (s.step e).1 := by
  have hreader := reader_step hopen e
  have hidle (hbytes : e.bytes = []) (hsame : e.reads s.reader = s.reader) :
      ∃ later, Reads limit (stream ++ e.bytes) later (s.step e).1 := by
    rw [hsame] at hreader
    rw [hbytes, List.append_nil]
    exact ⟨bodies, hreader ▸ h.reached, hreader ▸ h.settled⟩
  cases e with
  | receive bytes =>
    have hnone := failure_of_receive_open hopen hafter
    obtain ⟨hreached, hsettled⟩ := (h.reached.feed bytes).drain hnone
    refine ⟨bodies ++ (s.reader.feed bytes).drain.1, ?_, ?_⟩
    · rw [hreader]
      exact hreached
    · rw [hreader]
      exact hsettled
  | _ => exact hidle rfl rfl

/-- While a session is open its reader stands behind the bytes that have arrived. -/
theorem Reads.run (h : Reads limit stream bodies s) {events : List SessionEvent}
    (hopen : (s.run events).1.isClosed = false) :
    ∃ later, Reads limit (stream ++ arrived events) later (s.run events).1 := by
  induction events generalizing s stream bodies with
  | nil =>
    rw [← List.append_nil stream] at h
    exact ⟨bodies, h⟩
  | cons e rest ih =>
    have hearlier {s : Session} (events : List SessionEvent)
        (hlater : (s.run events).1.isClosed = false) : s.isClosed = false := by
      refine Bool.eq_false_iff.mpr fun hclosed => ?_
      exact absurd (hlater.symm.trans (isClosed_run hclosed events)) Bool.false_ne_true
    have hafter : (s.step e).1.isClosed = false := hearlier rest hopen
    obtain ⟨later, hlater⟩ := h.step (hearlier (e :: rest) hopen) hafter
    have hrest := ih hlater hopen
    rwa [List.append_assoc] at hrest

/-- On a stream that is cut at some place the peer counts as having closed the connection if the cut
is between two frames or right behind a header; anywhere else the session fails because bytes are
left over. -/
theorem run_peerClosed_of_cutAt {settings : ClientSettings} {codec : CodecSettings}
    {events : List SessionEvent} {count : Nat}
    (hcut : Frame.CutAt settings.maxFrameSize (arrived events) count)
    (hopen : ((start settings codec).run events).1.isClosed = false) :
    ((start settings codec).run events).1.step .peerClosed =
      ((start settings codec).run events).1.teardown
        (if count = 0 ∨ count = Frame.headerLength then
          .connectionClosed "connection closed by peer"
        else FrameReader.leftover) := by
  obtain ⟨bodies, hreads⟩ := (Reads.start settings codec).run hopen
  rw [List.nil_append] at hreads
  have hfinish := hreads.reached.finish_of_cutAt hreads.settled hcut
  rw [step, peerClosed, hfinish]
  by_cases hplace : count = 0 ∨ count = Frame.headerLength
  · rw [if_pos hplace, if_pos hplace]
  · rw [if_neg hplace, if_neg hplace]

end Session

end RemoteCall
