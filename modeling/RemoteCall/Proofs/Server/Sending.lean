import RemoteCall.Proofs.Codec.Composing
import RemoteCall.Proofs.Codec.RoundTrip
import RemoteCall.Proofs.Server.InFlight

/-!
# Responses that can be sent

A response is sent as it is if it encodes and its body keeps to the limit on frames; otherwise a
failure takes its place that says why. Failures have no payload, so they always encode, and their
bodies are read back as the same failures. Only their length can keep them from being sent.
-/

namespace RemoteCall

/-- The body of a response without payload. -/
def Encoder.bareResponse (r : Response) : List UInt8 := responseHead r ++ Varint.encode 0

namespace CodecSettings

variable {r : Response}

/-- A response without payload encodes under any settings. -/
theorem encodeResponse_of_null (s : CodecSettings) (h : r.payload = .null) :
    s.encodeResponse r = .ok (Encoder.bareResponse r) := by
  have htag : Encoder.valueTag s .null = .ok (Varint.encode 0) := rfl
  have hvalue : Encoder.value s s.maxDepth r.payload [] = .ok (Varint.encode 0, []) := by
    rw [h, Encoder.value_of_parts htag rfl, List.append_nil]
  exact Encoder.run_of_ok (Encoder.response_of_parts hvalue)

/-- A message is shorter than the body of its response. -/
theorem length_message_lt {text : String} (h : r.message = some text) :
    (Sized.bytesOf text).length + 1 < (Encoder.bareResponse r).length := by
  have hcount := Varint.length_encode_pos ((Sized.bytesOf text).length + 1)
  have hnull := Varint.length_encode_pos 0
  simp only [Encoder.bareResponse, Encoder.responseHead, h, Sized.encodeOptionalText,
    List.length_append]
  omega

/-- The body of a response without payload is read back as that response. -/
theorem decodeResponse_bareResponse (s : CodecSettings) (h : r.payload = .null)
    (hlength : (Encoder.bareResponse r).length ≤ UInt64.size) :
    s.decodeResponse (Encoder.bareResponse r) = .ok r := by
  have hmessage : ∀ text, r.message = some text →
      (Sized.bytesOf text).length + 1 < UInt64.size := by
    intro text htext
    have hlt := length_message_lt htext
    omega
  have hnull : Decoder.Takes (fun _ => True) (Decoder.value s) (Varint.encode 0) .null
      (fun _ => True) := Decoder.Takes.tagged_null
  have htakes := Decoder.response_takes hmessage hnull
  rw [← h] at htakes
  exact Decoder.run_of_takes htakes trivial

end CodecSettings

namespace Dispatcher

variable {m : Type → Type}

/-- The response encodes as the body, which keeps to the limit on frames. -/
structure Sends (d : Dispatcher m) (r : Response) (body : List UInt8) : Prop where
  encoded : d.codec.encodeResponse r = .ok body
  fits : body.length ≤ d.maxFrameSize

/-- The response keeps to the limit on frames, if it encodes. -/
def Fits (d : Dispatcher m) (r : Response) : Prop :=
  ∀ body, d.codec.encodeResponse r = .ok body → body.length ≤ d.maxFrameSize

variable {d : Dispatcher m} {r : Response} {body : List UInt8}

/-- Of a response without payload the length decides. -/
theorem fits_iff_of_null (h : r.payload = .null) :
    d.Fits r ↔ (Encoder.bareResponse r).length ≤ d.maxFrameSize := by
  have hencoded := d.codec.encodeResponse_of_null h
  constructor
  · intro hfits
    exact hfits _ hencoded
  · intro hlength body hbody
    obtain rfl := Except.ok.inj (hencoded.symm.trans hbody)
    exact hlength

/-- A response without payload that keeps to the limit can be sent. -/
theorem Fits.sends (hfits : d.Fits r) (h : r.payload = .null) :
    d.Sends r (Encoder.bareResponse r) :=
  ⟨d.codec.encodeResponse_of_null h, (fits_iff_of_null h).mp hfits⟩

/-- A response that can be sent is not replaced. -/
theorem Sends.reply_eq (h : d.Sends r body) (timestamp : Int64) :
    d.reply timestamp r = (r, body) := by
  rw [reply, h.encoded]
  exact if_pos h.fits

/-- The failure in place of a response without payload that is too long. -/
def oversized (d : Dispatcher m) (timestamp : Int64) (r : Response) : Response :=
  .failure r.id timestamp .unknownError
    (CallError.frameTooLarge (Encoder.bareResponse r).length d.maxFrameSize).message

/-- A response without payload that is too long is replaced. -/
theorem reply_of_not_fits (h : r.payload = .null) (hnot : ¬ d.Fits r) (timestamp : Int64) :
    d.reply timestamp r =
      (d.oversized timestamp r, Encoder.bareResponse (d.oversized timestamp r)) := by
  rw [reply, d.codec.encodeResponse_of_null h]
  exact if_neg fun hlength => hnot ((fits_iff_of_null h).mpr hlength)

/-- A response that can be sent is written. -/
theorem Sends.write_eq (h : d.Sends r body) (now : Moment) (c : Connection) :
    c.write d now r =
      .ok ({ c with activity := c.activity.touch now }, [.write r (Frame.wrap body)]) := by
  have hframe : Frame.encode d.maxFrameSize body = .ok (Frame.wrap body) :=
    Frame.encode_eq_ok_iff.mpr ⟨h.fits, rfl⟩
  rw [Connection.write, h.reply_eq]
  dsimp only
  rw [hframe]
  rfl

/-- What is written for a response that can be sent. -/
theorem Sends.respond_eq (h : d.Sends r body) (now : Moment) (c : Connection) :
    (c.respond d now r).2 = [.write r (Frame.wrap body)] := by
  rw [Connection.respond, h.write_eq]

/-- What is written for a response without payload that is too long. -/
theorem respond_of_not_fits (h : r.payload = .null) (hnot : ¬ d.Fits r) {now : Moment}
    (hfits : d.Fits (d.oversized now.timestamp r)) (c : Connection) :
    (c.respond d now r).2 = [.write (d.oversized now.timestamp r)
      (Frame.wrap (Encoder.bareResponse (d.oversized now.timestamp r)))] := by
  have hlength := (fits_iff_of_null (r := d.oversized now.timestamp r) rfl).mp hfits
  have hframe := Frame.encode_eq_ok_iff.mpr ⟨hlength, rfl⟩
  rw [Connection.respond, Connection.write, reply_of_not_fits h hnot]
  dsimp only
  rw [hframe]
  rfl

end Dispatcher

end RemoteCall
