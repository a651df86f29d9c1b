import RemoteCall.Proofs.Server.Sending
import RemoteCall.Proofs.Wire.Lengths

/-!
# The failure in place of a response

What stands in place of a response that cannot be sent is a failure that says why: how long the body
is, or what keeps it from being encoded. It is not measured before it is handed to the framing, so
it can be too long in its turn. Room for 94 bytes is enough for the failure in place of any response
that is too long; below 44 bytes there is none at all. In place of a response that does not encode,
the failure spells what is wrong with it, so no fixed limit has room for all of them.
-/

namespace RemoteCall

variable {m : Type → Type}

namespace Encoder

/-- The parts of the length of a failure. -/
theorem length_failure (id : UInt64) (timestamp : Int64) (status : Status) (text : String) :
    (bareResponse (.failure id timestamp status text)).length =
      (Varint.encode id.toNat).length + (Varint.encodeSigned timestamp.toInt).length +
        (Varint.encode ((Sized.bytesOf text).length + 1)).length + (Sized.bytesOf text).length +
          3 := by
  have htag : (classTag ClassId.response).length = 1 := by
    rw [classTag, Varint.encode_of_lt (by decide)]
    rfl
  have hstatus : (Varint.encode status.ordinal).length = 1 := by
    have hsmall : status.ordinal < 128 := by
      cases status with
      | _ => decide
    rw [Varint.encode_of_lt hsmall]
    rfl
  have hnull : (Varint.encode 0).length = 1 := by rw [Varint.encode_of_lt (by decide)]; rfl
  simp only [bareResponse, responseHead, Response.failure, Sized.encodeOptionalText,
    List.length_append, htag, hstatus, hnull]
  omega

/-- A failure takes at most 28 bytes besides its message. -/
theorem length_failure_le (id : UInt64) (timestamp : Int64) (status : Status) (text : String)
    (htext : (Sized.bytesOf text).length < UInt32.size) :
    (bareResponse (.failure id timestamp status text)).length ≤
      (Sized.bytesOf text).length + 28 := by
  have hid := Varint.length_encode_word_le id.toNat_lt
  have htimestamp := Varint.length_encodeSigned_le timestamp
  have hlength : (Varint.encode ((Sized.bytesOf text).length + 1)).length ≤ 5 :=
    Varint.length_encode_le (by decide) (Nat.lt_of_le_of_lt htext (by decide))
  rw [length_failure]
  omega

/-- A failure takes at least 6 bytes besides its message. -/
theorem le_length_failure (id : UInt64) (timestamp : Int64) (status : Status) (text : String) :
    (Sized.bytesOf text).length + 6 ≤
      (bareResponse (.failure id timestamp status text)).length := by
  have hid := Varint.length_encode_pos id.toNat
  have htimestamp : 0 < (Varint.encodeSigned timestamp.toInt).length :=
    Varint.length_encode_pos _
  have hlength := Varint.length_encode_pos ((Sized.bytesOf text).length + 1)
  rw [length_failure]
  omega

end Encoder

/-- The parts of the message about a body that is too long. -/
theorem length_frameTooLarge (size max : Nat) :
    (Sized.bytesOf (CallError.frameTooLarge size max).message).length =
      36 + (Nat.toDigits 10 size).length + (Nat.toDigits 10 max).length := by
  have hhead : (Sized.bytesOf "Frame too large: ").length = 17 := by decide +kernel
  have hmiddle : (Sized.bytesOf " bytes (max ").length = 12 := by decide +kernel
  have htail : (Sized.bytesOf " bytes)").length = 7 := by decide +kernel
  have hparts : (CallError.frameTooLarge size max).message =
      "Frame too large: " ++ toString size ++ " bytes (max " ++ toString max ++ " bytes)" := rfl
  rw [hparts, Sized.length_bytesOf_append, Sized.length_bytesOf_append,
    Sized.length_bytesOf_append, Sized.length_bytesOf_append, Sized.length_bytesOf_repr,
    Sized.length_bytesOf_repr, hhead, hmiddle, htail]
  omega

namespace Dispatcher

/-- What keeps a response from being sent as it is. -/
def obstacle? (d : Dispatcher m) (r : Response) : Option CallError :=
  match d.codec.encodeResponse r with
  | .error e => some (.codec e)
  | .ok body =>
    if body.length ≤ d.maxFrameSize then none
    else some (.frameTooLarge body.length d.maxFrameSize)

/-- The failure in place of a response that cannot be sent for a cause. -/
def inPlace (timestamp : Int64) (r : Response) (cause : CallError) : Response :=
  .failure r.id timestamp .unknownError cause.message

variable {d : Dispatcher m} {r : Response} {cause : CallError}

/-- A response that is too long has its length as obstacle. -/
theorem obstacle_of_long {body : List UInt8} (hbody : d.codec.encodeResponse r = .ok body)
    (hlong : d.maxFrameSize < body.length) :
    d.obstacle? r = some (.frameTooLarge body.length d.maxFrameSize) := by
  rw [obstacle?, hbody]
  exact if_neg (Nat.not_le_of_lt hlong)

/-- A response that does not encode has that as obstacle. -/
theorem obstacle_of_error {e : CodecError} (he : d.codec.encodeResponse r = .error e) :
    d.obstacle? r = some (.codec e) := by
  rw [obstacle?, he]

/-- A response without an obstacle can be sent. -/
theorem sends_of_no_obstacle (h : d.obstacle? r = none) : ∃ body, d.Sends r body := by
  unfold obstacle? at h
  split at h
  · cases h
  · rename_i body hbody
    split at h
    · rename_i hfits
      exact ⟨body, hbody, hfits⟩
    · cases h

/-- In place of a response with an obstacle stands the failure that tells it. -/
theorem reply_of_obstacle (h : d.obstacle? r = some cause) (timestamp : Int64) :
    d.reply timestamp r =
      (inPlace timestamp r cause, Encoder.bareResponse (inPlace timestamp r cause)) := by
  unfold obstacle? at h
  rw [reply]
  split at h
  · rename_i e he
    cases h
    rw [he]
    rfl
  · rename_i body hbody
    rw [hbody]
    split at h
    · cases h
    · rename_i hnot
      cases h
      exact if_neg hnot

/-- The failure in place of a response that is too long fits into 94 bytes. -/
theorem fits_inPlace_of_room {size : Nat} (hsize : size < UInt64.size)
    (hlimit : d.maxFrameSize < UInt32.size) (hroom : 94 ≤ d.maxFrameSize) (timestamp : Int64) :
    d.Fits (inPlace timestamp r (.frameTooLarge size d.maxFrameSize)) := by
  have hdigits : (Nat.toDigits 10 size).length ≤ 20 :=
    Nat.toDigits_length 10 size 20 (by decide) (Nat.lt_trans hsize (by decide))
  have hdigits' : (Nat.toDigits 10 d.maxFrameSize).length ≤ 10 :=
    Nat.toDigits_length 10 _ 10 (by decide) (Nat.lt_trans hlimit (by decide))
  have htext := length_frameTooLarge size d.maxFrameSize
  have hword : UInt32.size = 4294967296 := rfl
  have hlength := Encoder.length_failure_le r.id timestamp .unknownError
    (CallError.frameTooLarge size d.maxFrameSize).message (by omega)
  refine (fits_iff_of_null rfl).mpr ?_
  unfold inPlace
  omega

/-- Below 44 bytes no failure fits that stands in place of a response that is too long. -/
theorem not_fits_inPlace_of_narrow {size : Nat} (hnarrow : d.maxFrameSize < 44)
    (timestamp : Int64) : ¬ d.Fits (inPlace timestamp r (.frameTooLarge size d.maxFrameSize)) := by
  intro hfits
  have hlength := (fits_iff_of_null rfl).mp hfits
  have hleast := Encoder.le_length_failure r.id timestamp .unknownError
    (CallError.frameTooLarge size d.maxFrameSize).message
  have htext := length_frameTooLarge size d.maxFrameSize
  have hdigits := Nat.length_toDigits_pos (b := 10) (n := size)
  have hdigits' := Nat.length_toDigits_pos (b := 10) (n := d.maxFrameSize)
  unfold inPlace at hlength
  omega

/-- A failure fits that stands in place of a response for a short enough cause. -/
theorem fits_inPlace_of_short (hlimit : d.maxFrameSize < UInt32.size)
    (hshort : (Sized.bytesOf cause.message).length + 28 ≤ d.maxFrameSize) (timestamp : Int64) :
    d.Fits (inPlace timestamp r cause) := by
  have hlength := Encoder.length_failure_le r.id timestamp .unknownError
    cause.message (by omega)
  exact (fits_iff_of_null rfl).mpr (Nat.le_trans hlength hshort)

/-- A response cannot be sent, and neither can the failure in its place: its body is too long. -/
def Unanswerable (d : Dispatcher m) (timestamp : Int64) (r : Response) (cause : CallError) : Prop :=
  ∃ obstacle, d.obstacle? r = some obstacle ∧ ¬ d.Fits (inPlace timestamp r obstacle) ∧
    cause = .frameTooLarge (Encoder.bareResponse (inPlace timestamp r obstacle)).length
      d.maxFrameSize

/-- The body that is handed to the framing is that of the response that goes with it, and begins
with the id of the request. -/
theorem reply_identified (d : Dispatcher m) (timestamp : Int64) (r : Response) :
    (d.reply timestamp r).1.id = r.id ∧
      d.codec.encodeResponse (d.reply timestamp r).1 = .ok (d.reply timestamp r).2 ∧
      ∃ rest, (d.reply timestamp r).2 =
        Encoder.classTag ClassId.response ++ Varint.encode r.id.toNat ++ rest := by
  have hencoded : d.codec.encodeResponse (d.reply timestamp r).1 =
      .ok (d.reply timestamp r).2 := by
    cases hobstacle : d.obstacle? r with
    | none =>
      obtain ⟨body, hsends⟩ := sends_of_no_obstacle hobstacle
      rw [hsends.reply_eq]
      exact hsends.encoded
    | some cause =>
      rw [reply_of_obstacle hobstacle]
      exact d.codec.encodeResponse_of_null rfl
  refine ⟨d.reply_id timestamp r, hencoded, ?_⟩
  obtain ⟨table, hrun⟩ := Encoder.run_eq_ok hencoded
  obtain ⟨payload, -, hbody⟩ := Encoder.response_eq_ok hrun
  rw [hbody, Encoder.responseHead, d.reply_id, List.append_assoc, List.append_assoc,
    List.append_assoc]
  exact ⟨_, rfl⟩

end Dispatcher

end RemoteCall
