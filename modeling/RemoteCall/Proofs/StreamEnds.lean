import RemoteCall.Proofs.Client.Downstream
import RemoteCall.Proofs.Server.Upstream

/-!
# Streams that break off

What both sides of a connection make of a stream that breaks off, wherever it does and in whatever
pieces it has arrived. Of all the places inside a frame there is one at which neither side notices:
right behind a header, when no byte of the body has come.
-/

namespace RemoteCall

/-- **How the end of a stream is told.** A stream is made of frames that are acceptable, and of the
first `count` bytes of one more, none if `count` is zero. However it has arrived, a reader that has
been asked until no frame is complete tells a clean end if it stops between two frames or right
behind a header; anywhere else inside a frame, in the header or in the body, it tells that bytes are
left over. On such an end an open connection of a server ends without a word or fails with all that
is in flight, once it finds no frame any more, and it does end if it goes on reading. An open
session closes as one whose peer has closed the connection, or fails because bytes are left over. -/
theorem cut_told {limit count : Nat} {stream : List UInt8}
    (hcut : Frame.CutAt limit stream count) :
    (Frame.IsWhole limit stream ↔ count = 0) ∧
    (∀ actions, FrameReader.received actions = stream →
      ((FrameReader.start limit).run actions).2.exhaust.2.finish =
        if count = 0 ∨ count = Frame.headerLength then .clean
        else .broken FrameReader.leftover) ∧
    (∀ (m : Type → Type) (d : Dispatcher m) (opened now : Moment)
        (events : List (Moment × ConnectionEvent)), Connection.arrived events = stream →
      let c := ((Connection.start limit opened).run d events).1
      (c.isEnded = false → c.reader.next.1 = .ok none → ∃ reader,
        c.step d now (.read true) =
          if count = 0 ∨ count = Frame.headerLength then
            ({ c with reader } : Connection).finish .clean
          else ({ c with reader } : Connection).fail d now FrameReader.leftover) ∧
      ∀ moments : List Moment, c.reader.span ≤ moments.length →
        (c.run d (moments.map fun now => (now, .read true))).1.isEnded = true) ∧
    ∀ (settings : ClientSettings) (codec : CodecSettings) (events : List SessionEvent),
      settings.maxFrameSize = limit → Session.arrived events = stream →
      let s := ((Session.start settings codec).run events).1
      s.isClosed = false →
        s.step .peerClosed = s.teardown
          (if count = 0 ∨ count = Frame.headerLength then
            .connectionClosed "connection closed by peer"
          else FrameReader.leftover) := by
  refine ⟨hcut.isWhole_iff, ?reader, ?server, ?client⟩
  case reader =>
    rintro actions rfl
    exact FrameReader.run_exhaust_finish limit actions hcut
  case server =>
    rintro m d opened now events rfl
    exact ⟨Connection.run_read_of_cutAt now opened hcut,
      fun moments hmany => Connection.isEnded_run_reads d _ hmany⟩
  case client =>
    rintro settings codec events rfl rfl
    exact Session.run_peerClosed_of_cutAt hcut

namespace BrokenOff

/-- The header of a body of five bytes, and nothing of the body. -/
def stream : List UInt8 := [6, 193, 0, 0, 0, 5]

/-- The stream is cut right behind a header. -/
theorem cutAt : Frame.CutAt Frame.standardLimit stream 6 :=
  ⟨[], [0, 0, 0, 0, 0], by decide⟩

end BrokenOff

/-- A session and a connection to which only a header has come take its end for a clean one, though
the stream is not made of whole frames. -/
theorem cut_told_behind_header :
    Frame.CutAt Frame.standardLimit BrokenOff.stream 6 ∧
    ¬ Frame.IsWhole Frame.standardLimit BrokenOff.stream ∧
    (((Session.start .standard .standard).run
      [.receive BrokenOff.stream]).1.step .peerClosed).1.closeReason =
        some "connection closed by peer" ∧
    (((Connection.start Frame.standardLimit ⟨0, 0⟩).run
      (⟨.empty, .standard, Frame.standardLimit⟩ : Dispatcher Id)
      [(⟨0, 0⟩, .receive BrokenOff.stream), (⟨0, 0⟩, .read true)]).1.ending = some .clean) := by
  obtain ⟨hwhole, -, hserver, hclient⟩ := cut_told BrokenOff.cutAt
  refine ⟨BrokenOff.cutAt, ?_, ?_, ?_⟩
  · rw [hwhole]
    decide
  · rw [hclient .standard .standard [.receive BrokenOff.stream] rfl rfl (by decide +kernel)]
    rfl
  · obtain ⟨hread, -⟩ := hserver Id ⟨.empty, .standard, Frame.standardLimit⟩ ⟨0, 0⟩ ⟨0, 0⟩
      [(⟨0, 0⟩, .receive BrokenOff.stream)] rfl
    obtain ⟨reader, hstep⟩ := hread rfl rfl
    exact congrArg (fun out => out.1.ending) hstep

end RemoteCall
