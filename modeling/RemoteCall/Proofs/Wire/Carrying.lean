import RemoteCall.Proofs.Wire.StreamEnd

/-!
# Frames on their way

What a reader holds and what is still in transit to it are together the frames of some bodies. A
frame that is written joins them at the end, bytes that arrive leave them as they are, and a frame
that is taken out of the reader is the first of them. The header of the first frame may have been
used already.
-/

namespace RemoteCall

namespace Frame

variable {limit length : Nat} {stream more : List UInt8} {bodies : List (List UInt8)}

/-- Behind whole frames a parse goes on as from the start. -/
theorem parse_append (h : parse limit stream = ⟨bodies, .incomplete .header []⟩)
    (more : List UInt8) : parse limit (stream ++ more) = (parse limit more).behind bodies := by
  have hstops := stops_of_parse h
  have hstream : stream = frames bodies := hstops.parts.trans (List.append_nil _)
  rw [hstream, parse_frames hstops.acceptable]

/-- So does the parse of a body and the whole frames behind it. -/
theorem parseBody_append (h : parseBody limit length stream = ⟨bodies, .incomplete .header []⟩)
    (more : List UInt8) :
    parseBody limit length (stream ++ more) = (parse limit more).behind bodies := by
  unfold parseBody at h ⊢
  split at h
  · cases h
  rename_i hlong
  have hle : length ≤ stream.length := Nat.le_of_not_lt hlong
  have hmore : ¬ (stream ++ more).length < length := by
    rw [List.length_append]
    omega
  rcases hrest : parse limit (stream.drop length) with ⟨later, ending⟩
  rw [hrest, Parsed.behind] at h
  cases h
  rw [if_neg hmore, List.take_append_of_le_length hle, List.drop_append_of_le_length hle,
    parse_append hrest, Parsed.behind, Parsed.behind, Parsed.behind, List.append_assoc]

/-- The parse of one frame. -/
theorem parse_wrap_alone {body : List UInt8} (h : IsLength limit body.length) :
    parse limit (wrap body) = ⟨[body], .incomplete .header []⟩ := by
  have hshort : ([] : List UInt8).length < headerLength := Nat.succ_pos 5
  have hparse := parse_wrap h []
  rw [List.append_nil, parse_of_short hshort] at hparse
  exact hparse

end Frame

namespace FrameReader

/-- What a reader holds and what is in transit to it are the frames of these bodies. -/
structure Carries (r : FrameReader) (transit : List UInt8) (bodies : List (List UInt8)) : Prop where
  opened : r.state ≠ .failed
  whole : r.ahead transit = ⟨bodies, .incomplete .header []⟩

namespace Carries

variable {r r' : FrameReader} {transit : List UInt8} {bodies : List (List UInt8)}

/-- Nothing is on its way to a reader at the start of a stream. -/
theorem start (limit : Nat) : (FrameReader.start limit).Carries [] [] where
  opened := by simp [FrameReader.start]
  whole := Frame.parse_of_short (Nat.succ_pos 5)

/-- A frame that is written joins those on their way. -/
theorem write (h : r.Carries transit bodies) {body : List UInt8}
    (hbody : Frame.IsLength r.limit body.length) :
    r.Carries (transit ++ Frame.wrap body) (bodies ++ [body]) where
  opened := h.opened
  whole := by
    have hwhole := h.whole
    have hone := Frame.parse_wrap_alone hbody
    unfold ahead at hwhole ⊢
    rw [← List.append_assoc]
    cases hstate : r.state with
    | failed => exact absurd hstate h.opened
    | header =>
      rw [hstate] at hwhole
      exact (Frame.parse_append hwhole _).trans (congrArg (Frame.Parsed.behind · bodies) hone)
    | body length =>
      rw [hstate] at hwhole
      exact (Frame.parseBody_append hwhole _).trans (congrArg (Frame.Parsed.behind · bodies) hone)

/-- Bytes that arrive leave the frames as they are. -/
theorem feed {bytes : List UInt8} (h : r.Carries (bytes ++ transit) bodies) :
    (r.feed bytes).Carries transit bodies where
  opened := h.opened
  whole := by
    have hwhole := h.whole
    simp only [ahead, FrameReader.feed, List.append_assoc] at hwhole ⊢
    exact hwhole

/-- A reader to which whole frames are on their way gives out the first of them or nothing. -/
theorem next (h : r.Carries transit bodies) :
    r.next.2.limit = r.limit ∧
      ((r.next.1 = .ok none ∧ r.next.2.Carries transit bodies) ∨
        ∃ body rest, r.next.1 = .ok (some body) ∧ bodies = body :: rest ∧
          r.next.2.Carries transit rest) := by
  have hwhole := h.whole
  generalize hnext : r.next = answered
  have hasked := hnext ▸ asked_next h.opened
  cases hasked with
  | @frame body r' hlimit hstate _ hahead =>
    rw [hahead transit] at hwhole
    rcases hrest : r'.ahead transit with ⟨later, ending⟩
    rw [hrest, Frame.Parsed.behind] at hwhole
    cases hwhole
    exact ⟨hlimit, .inr ⟨body, later, rfl, rfl, by simp [hstate], hrest⟩⟩
  | waiting hlimit hstate hahead _ =>
    exact ⟨hlimit, .inl ⟨rfl, hstate, (hahead transit).symm.trans hwhole⟩⟩
  | refused hahead =>
    rw [hahead transit] at hwhole
    cases hwhole

/-- A settled reader to which nothing is in transit has no frame before it. -/
theorem eq_nil (h : r.Carries [] bodies) (hsettled : r.Settled) : bodies = [] := by
  have hnone := (if_neg h.opened).mp hsettled
  exact congrArg Frame.Parsed.bodies (h.whole.symm.trans hnone)

/-- A reader that has nothing to give out and to which nothing is in transit has no frame before
it. -/
theorem eq_nil_of_next (h : r.Carries [] bodies) (hnone : r.next.1 = .ok none) : bodies = [] := by
  rcases h.next.2 with ⟨-, hcarries⟩ | ⟨body, rest, hsome, -⟩
  · refine hcarries.eq_nil ?_
    rcases r.next_span_or_settled with ⟨⟨body, hbody⟩, -⟩ | ⟨-, hsettled⟩
    · cases hnone.symm.trans hbody
    · exact hsettled
  · cases hnone.symm.trans hsome

/-- Where no frame is on its way no byte is in transit. -/
theorem transit_eq_nil (h : r.Carries transit []) : transit = [] := by
  have hwhole := h.whole
  unfold ahead at hwhole
  cases hstate : r.state with
  | failed => exact absurd hstate h.opened
  | header =>
    rw [hstate] at hwhole
    exact (List.append_eq_nil_iff.mp (Frame.stops_of_parse hwhole).parts).2
  | body length =>
    rw [hstate] at hwhole
    change Frame.parseBody r.limit length (r.buffer ++ transit) = _ at hwhole
    unfold Frame.parseBody at hwhole
    split at hwhole
    · cases hwhole
    · have hbodies := congrArg Frame.Parsed.bodies hwhole
      cases hbodies

/-- Taking frames one after the other takes the first of those on their way, up to a point at which
the reader is settled. -/
theorem takeFrames (h : r.Carries transit bodies) {most : Nat} (hmost : r.span ≤ most) :
    (r.takeFrames most).2.1 = none ∧ (r.takeFrames most).2.2.limit = r.limit ∧
      (r.takeFrames most).2.2.Settled ∧
      ∃ rest, bodies = (r.takeFrames most).1 ++ rest ∧
        (r.takeFrames most).2.2.Carries transit rest := by
  induction most generalizing r bodies with
  | zero =>
    unfold span at hmost
    split at hmost <;> omega
  | succ most ih =>
    obtain ⟨hlimit, hnext⟩ := h.next
    have hspan := r.next_span_or_settled
    rcases hanswer : r.next with ⟨answer, after⟩
    rw [hanswer] at hlimit hnext hspan
    rw [FrameReader.takeFrames, hanswer]
    rcases hnext with ⟨hnone, hcarries⟩ | ⟨body, rest, hsome, rfl, hcarries⟩
    · obtain rfl : answer = .ok none := hnone
      have hsettled : after.Settled := by simpa using hspan
      exact ⟨rfl, hlimit, hsettled, bodies, rfl, hcarries⟩
    · obtain rfl : answer = .ok (some body) := hsome
      have hless : after.span < r.span := by simpa using hspan
      obtain ⟨hfailure, hlimit', hsettled, later, hlater, hcarries'⟩ :=
        ih hcarries (show after.span ≤ most by omega)
      exact ⟨hfailure, hlimit'.trans hlimit, hsettled, later, congrArg (body :: ·) hlater,
        hcarries'⟩

/-- Taking all frames that are complete takes the first of those on their way. -/
theorem drain (h : r.Carries transit bodies) :
    r.drain.2.1 = none ∧ r.drain.2.2.limit = r.limit ∧ r.drain.2.2.Settled ∧
      ∃ rest, bodies = r.drain.1 ++ rest ∧ r.drain.2.2.Carries transit rest := by
  have hspan : r.span ≤ r.buffer.length + 2 := by
    unfold span
    split <;> omega
  exact h.takeFrames hspan

/-- If nothing more is in transit, taking all frames that are complete takes all of them, and the
reader ends as at the start of a stream. -/
theorem drain_eq (h : r.Carries [] bodies) :
    r.drain = (bodies, none, FrameReader.start r.limit) := by
  obtain ⟨hfailure, hlimit, hsettled, rest, hparts, hcarries⟩ := h.drain
  obtain rfl : rest = [] := hcarries.eq_nil hsettled
  have hends := ((if_neg hcarries.opened).mp hsettled).symm.trans hcarries.whole
  obtain ⟨-, hending⟩ := Frame.Parsed.mk.inj hends
  obtain ⟨hstate, hbuffer⟩ := Frame.Ending.incomplete.inj hending
  rcases hdrain : r.drain with ⟨taken, failure, last⟩
  rw [hdrain] at hfailure hlimit hparts hstate hbuffer
  rw [List.append_nil] at hparts
  subst hfailure hparts
  rw [FrameReader.start, ← hlimit, ← hstate, ← hbuffer]

end Carries

end FrameReader

end RemoteCall
