import RemoteCall.Proofs.Wire.Carrying

/-!
# A buffer filled with frames

Bodies are encoded into one buffer, one after the other. The buffer then holds the frames of those
that keep to the limit and nothing of the others (`Frame.encodeAll_eq`), so a reader with this limit
takes it apart into these bodies and is at the start of a stream again. The limit has to fit the
four bytes of a header: the length of a longer body would be cut.
-/

namespace RemoteCall

namespace Frame

/-- Bodies encoded into a buffer one after the other: what is answered for each, and the buffer
afterwards. -/
def encodeAll (limit : Nat) :
    List UInt8 → List (List UInt8) → List (Except CallError Unit) × List UInt8
  | buffer, [] => ([], buffer)
  | buffer, body :: rest =>
    let (answer, filled) := encodeInto limit buffer body
    let (answers, last) := encodeAll limit filled rest
    (answer :: answers, last)

/-- What is answered for a body. -/
def verdict (limit : Nat) (body : List UInt8) : Except CallError Unit :=
  if limit < body.length then .error (.frameTooLarge body.length limit) else .ok ()

/-- The bodies that keep to a limit. -/
def accepted (limit : Nat) (bodies : List (List UInt8)) : List (List UInt8) :=
  bodies.filter fun body => body.length ≤ limit

variable {limit : Nat}

/-- A body above the limit changes nothing, any other adds its frame. -/
theorem encodeInto_eq (limit : Nat) (buffer body : List UInt8) :
    encodeInto limit buffer body =
      if limit < body.length then (.error (.frameTooLarge body.length limit), buffer)
      else (.ok (), buffer ++ wrap body) := by
  unfold encodeInto encode
  by_cases hlong : limit < body.length
  · rw [if_pos hlong, if_pos hlong]
  · rw [if_neg hlong, if_neg hlong]

/-- A buffer grows by the frames of the bodies that keep to the limit. -/
theorem encodeAll_eq (limit : Nat) (buffer : List UInt8) (bodies : List (List UInt8)) :
    encodeAll limit buffer bodies =
      (bodies.map (verdict limit), buffer ++ frames (accepted limit bodies)) := by
  induction bodies generalizing buffer with
  | nil =>
    rw [accepted, List.filter_nil, frames, List.flatMap_nil, List.append_nil]
    rfl
  | cons body rest ih =>
    rw [encodeAll, encodeInto_eq, accepted, List.filter_cons, List.map_cons, verdict]
    by_cases hlong : limit < body.length
    · have hnot : ¬ body.length ≤ limit := Nat.not_le.mpr hlong
      simp only [if_pos hlong, decide_eq_false hnot, Bool.false_eq_true, if_false, ih]
      rfl
    · have hle : body.length ≤ limit := Nat.not_lt.mp hlong
      simp only [if_neg hlong, decide_eq_true hle, if_true, ih, List.append_assoc]
      rfl

/-- Bodies that keep to a limit of 32 bits can be framed. -/
theorem acceptable_accepted (hlimit : limit < UInt32.size) (bodies : List (List UInt8)) :
    Acceptable limit (accepted limit bodies) := by
  intro body hbody
  have hle : body.length ≤ limit := of_decide_eq_true (List.mem_filter.mp hbody).2
  exact ⟨hle, Nat.lt_of_le_of_lt hle hlimit⟩

end Frame

namespace FrameReader

variable {limit : Nat}

/-- A reader that gets whole frames has just these before it. -/
theorem carries_frames {bodies : List (List UInt8)} (h : Frame.Acceptable limit bodies) :
    ((start limit).feed (Frame.frames bodies)).Carries [] bodies where
  opened := by simp [start, feed]
  whole := by
    change Frame.parse limit (([] ++ Frame.frames bodies) ++ []) = _
    rw [List.nil_append, List.append_nil, Frame.parse_whole h]

/-- **What is encoded into a buffer is decoded from it.** Whatever bodies are encoded in turn into
one buffer under a limit that fits a header: refused are exactly those that are longer than the
limit, with their length and the limit as the cause, and a refusal leaves the buffer as it was,
whatever it held. A reader with the same limit then gives out exactly the accepted bodies, in order
and without a failure, and ends as it started, with an empty buffer and no further frame. -/
theorem drain_encodeAll (hlimit : limit < UInt32.size) (bodies : List (List UInt8)) :
    let (answers, wire) := Frame.encodeAll limit [] bodies
    (answers = bodies.map fun body =>
      if limit < body.length then .error (.frameTooLarge body.length limit) else .ok ()) ∧
    (∀ buffer body, Frame.encodeInto limit buffer body =
      if limit < body.length then (.error (.frameTooLarge body.length limit), buffer)
      else (.ok (), buffer ++ Frame.wrap body)) ∧
    ((start limit).feed wire).drain =
      (bodies.filter fun body => body.length ≤ limit, none, start limit) ∧
    (start limit).next = (.ok none, start limit) := by
  have hacceptable := Frame.acceptable_accepted hlimit bodies
  rw [Frame.encodeAll_eq, List.nil_append]
  exact ⟨rfl, Frame.encodeInto_eq limit, (carries_frames hacceptable).drain_eq, rfl⟩

/-- Four bodies under a limit of three bytes, of which the second is refused. -/
theorem drain_encodeAll_refusing :
    3 < UInt32.size ∧
    Frame.encodeAll 3 [] [[7], [1, 2, 3, 4], [], [1, 2, 3]] =
      ([.ok (), .error (.frameTooLarge 4 3), .ok (), .ok ()],
        [6, 193, 0, 0, 0, 1, 7] ++ ([6, 193, 0, 0, 0, 0] ++ [6, 193, 0, 0, 0, 3, 1, 2, 3])) ∧
    ((start 3).feed (Frame.encodeAll 3 [] [[7], [1, 2, 3, 4], [], [1, 2, 3]]).2).drain =
      ([[7], [], [1, 2, 3]], none, start 3) := by
  have hlimit : 3 < UInt32.size := by decide
  obtain ⟨-, -, hdrain, -⟩ := drain_encodeAll hlimit [[7], [1, 2, 3, 4], [], [1, 2, 3]]
  exact ⟨hlimit, rfl, hdrain⟩

end FrameReader

end RemoteCall
