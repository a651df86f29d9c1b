import RemoteCall.Proofs.Wire.WholeFrames

/-!
# The end of a stream

A reader judges the end of its stream by the bytes in its buffer. A header is used as soon as it is
complete, so behind the header of a body that has not begun the buffer is as empty as it is between
two frames: these are the two places at which a stream ends cleanly. Anywhere else inside a frame
bytes are left over.
-/

namespace RemoteCall

namespace Frame

/-- The stream is made of whole frames. -/
def IsWhole (limit : Nat) (stream : List UInt8) : Prop :=
  ∃ bodies, Acceptable limit bodies ∧ stream = frames bodies

/-- The stream stops right behind a header, and no byte has come of the body that it announces. -/
def IsHeaderCut (limit : Nat) (stream : List UInt8) : Prop :=
  ∃ bodies length, Acceptable limit bodies ∧ IsLength limit length ∧ 0 < length ∧
    stream = frames bodies ++ header length

/-- The stream is made of whole frames and of the first `count` bytes of one more. -/
def CutAt (limit : Nat) (stream : List UInt8) (count : Nat) : Prop :=
  ∃ bodies body, Acceptable limit bodies ∧ IsLength limit body.length ∧
    count < (wrap body).length ∧ stream = frames bodies ++ (wrap body).take count

variable {limit count : Nat} {stream : List UInt8}

/-- How the parse of a stream of whole frames ends. -/
theorem IsWhole.parse_eq (h : IsWhole limit stream) :
    ∃ bodies, parse limit stream = ⟨bodies, .incomplete .header []⟩ := by
  obtain ⟨bodies, hbodies, rfl⟩ := h
  exact ⟨bodies, parse_whole hbodies⟩

/-- How the parse of a stream ends that stops behind a header. -/
theorem IsHeaderCut.parse_eq (h : IsHeaderCut limit stream) :
    ∃ bodies length, parse limit stream = ⟨bodies, .incomplete (.body length) []⟩ := by
  obtain ⟨bodies, length, hbodies, hlength, hpos, rfl⟩ := h
  have hshort : ([] : List UInt8).length < length := hpos
  have hheader := parse_header hlength []
  rw [List.append_nil, parseBody, if_pos hshort] at hheader
  refine ⟨bodies, length, ?_⟩
  rw [parse_frames hbodies, hheader, Parsed.behind, List.append_nil]

/-- A stream that stops behind a header is not made of whole frames. -/
theorem IsHeaderCut.not_isWhole (h : IsHeaderCut limit stream) : ¬ IsWhole limit stream := by
  intro hwhole
  obtain ⟨_, hends⟩ := hwhole.parse_eq
  obtain ⟨_, _, hstops⟩ := h.parse_eq
  have hsame := congrArg Parsed.ending (hends.symm.trans hstops)
  cases hsame

/-- A stream that is cut before a frame is made of whole frames. -/
theorem isWhole_of_cutAt_zero (h : CutAt limit stream 0) : IsWhole limit stream := by
  obtain ⟨bodies, body, hbodies, -, -, rfl⟩ := h
  exact ⟨bodies, hbodies, List.append_nil _⟩

/-- A stream that is cut behind the header of a frame stops there. -/
theorem isHeaderCut_of_cutAt_headerLength (h : CutAt limit stream headerLength) :
    IsHeaderCut limit stream := by
  obtain ⟨bodies, body, hbodies, hbody, hlt, rfl⟩ := h
  have hparts : wrap body = header body.length ++ body := rfl
  have hpos : 0 < body.length := by
    rw [hparts, List.length_append, length_header] at hlt
    omega
  refine ⟨bodies, body.length, hbodies, hbody, hpos, ?_⟩
  rw [hparts, ← length_header body.length, List.take_left]

/-- How the parse of a stream ends that is cut at some place. -/
theorem CutAt.parse_eq (h : CutAt limit stream count) :
    ∃ bodies state rest, parse limit stream = ⟨bodies, .incomplete state rest⟩ ∧
      (rest = [] ↔ count = 0 ∨ count = headerLength) := by
  obtain ⟨bodies, body, hbodies, hbody, hlt, rfl⟩ := h
  have hparts : wrap body = header body.length ++ body := rfl
  have hlength := length_header body.length
  rw [hparts, List.length_append, hlength] at hlt
  rw [parse_frames hbodies, hparts]
  by_cases hshort : count < headerLength
  · -- the header is not complete, and none of it is used
    have htaken : ((header body.length ++ body).take count).length = count := by
      rw [List.length_take, List.length_append, hlength]
      omega
    refine ⟨bodies, .header, (header body.length ++ body).take count, ?_, ?_⟩
    · rw [parse_of_short (by rw [htaken]; exact hshort), Parsed.behind, List.append_nil]
    · rw [← List.length_eq_zero_iff, htaken]
      omega
  · -- the header is used, and what there is of the body is left over
    have htake : (header body.length ++ body).take count =
        header body.length ++ body.take (count - headerLength) := by
      rw [List.take_append, hlength, List.take_of_length_le (by rw [hlength]; omega)]
    have htaken : (body.take (count - headerLength)).length = count - headerLength := by
      rw [List.length_take]
      omega
    refine ⟨bodies, .body body.length, body.take (count - headerLength), ?_, ?_⟩
    · rw [htake, parse_header hbody, parseBody, if_pos (by rw [htaken]; omega), Parsed.behind,
        List.append_nil]
    · rw [← List.length_eq_zero_iff, htaken]
      simp only [headerLength] at hshort ⊢
      omega

/-- The two clean places among all at which a stream can be cut. -/
theorem CutAt.clean_iff (h : CutAt limit stream count) :
    IsWhole limit stream ∨ IsHeaderCut limit stream ↔ count = 0 ∨ count = headerLength := by
  obtain ⟨_, _, rest, hcut, hrest⟩ := h.parse_eq
  have hnone {state : FrameState} {bodies : List (List UInt8)}
      (hends : parse limit stream = ⟨bodies, .incomplete state []⟩) : rest = [] := by
    have hending := congrArg Parsed.ending (hcut.symm.trans hends)
    exact (Ending.incomplete.inj hending).2
  constructor
  · rintro (hwhole | hstops)
    · obtain ⟨_, hends⟩ := hwhole.parse_eq
      exact hrest.mp (hnone hends)
    · obtain ⟨_, _, hends⟩ := hstops.parse_eq
      exact hrest.mp (hnone hends)
  · rintro (rfl | rfl)
    · exact .inl (isWhole_of_cutAt_zero h)
    · exact .inr (isHeaderCut_of_cutAt_headerLength h)

/-- Only a cut between two frames leaves whole frames. -/
theorem CutAt.isWhole_iff (h : CutAt limit stream count) : IsWhole limit stream ↔ count = 0 := by
  constructor
  · intro hwhole
    rcases h.clean_iff.mp (.inl hwhole) with hzero | hheader
    · exact hzero
    · subst hheader
      exact absurd hwhole (isHeaderCut_of_cutAt_headerLength h).not_isWhole
  · rintro rfl
    exact isWhole_of_cutAt_zero h

end Frame

namespace FrameReader

/-- The failure of a reader that has bytes left over at the end of its stream. -/
def leftover : CallError := .io "bytes remaining on stream"

variable {limit count : Nat} {stream : List UInt8} {bodies : List (List UInt8)} {r : FrameReader}

/-- A stream ends cleanly where nothing is in the buffer. -/
theorem finish_eq_clean_iff : r.finish = .clean ↔ r.buffer = [] := by
  unfold finish
  split
  · rename_i hempty
    exact iff_of_true rfl (List.isEmpty_iff.mp hempty)
  · rename_i hmore
    exact iff_of_false nofun fun hnone => hmore (List.isEmpty_iff.mpr hnone)

/-- A stream that does not end cleanly ends with bytes left over. -/
theorem finish_eq_broken (h : r.finish ≠ .clean) : r.finish = .broken leftover := by
  unfold finish at h ⊢
  split
  · rename_i hempty
    exact absurd (if_pos hempty) h
  · rfl

/-- A reader that has given out frames only has not failed, and its state and buffer parse into what
is behind them. -/
theorem Reached.of_bodies {seen : List Output} (h : Reached limit stream seen r)
    (hseen : seen = bodies.map .ok) : r.state ≠ .failed ∧
      ∀ more, Frame.parse limit (stream ++ more) = (r.ahead more).behind bodies := by
  cases h with
  | reading hlimit hopen hparse =>
    obtain rfl := (List.map_inj_right fun _ _ hsame => Except.ok.inj hsame).mp hseen
    exact ⟨hopen, hparse⟩
  | @refused before cause buffer later hparse =>
    have hcause : (Except.error cause : Output) ∈ bodies.map .ok := by
      rw [← hseen]
      simp
    simp at hcause

/-- A reader that has not failed has given out frames only. -/
theorem Reached.exists_bodies {seen : List Output} (h : Reached limit stream seen r)
    (hopen : r.state ≠ .failed) : ∃ bodies : List (List UInt8), seen = bodies.map .ok := by
  cases h with
  | @reading before => exact ⟨before, rfl⟩
  | refused => exact absurd rfl hopen

/-- A request that does not fail brings out a frame or nothing. -/
theorem Reached.next (h : Reached limit stream (bodies.map .ok) r) {answer : Option (List UInt8)}
    (hnext : r.next.1 = .ok answer) :
    Reached limit stream ((bodies ++ answer.toList).map .ok) r.next.2 := by
  have hdecode := h.decode
  have houtputs : outputs (.ok answer) = answer.toList.map .ok := by
    cases answer with
    | none => rfl
    | some body => rfl
  rwa [hnext, houtputs, ← List.map_append] at hdecode

/-- Frames taken until none is complete, without a failure, leave a settled reader. -/
theorem Reached.drain (h : Reached limit stream (bodies.map .ok) r) (hnone : r.drain.2.1 = none) :
    Reached limit stream ((bodies ++ r.drain.1).map .ok) r.drain.2.2 ∧ r.drain.2.2.Settled := by
  have hexhaust : r.exhaust = (r.drain.1.map .ok, r.drain.2.2) := by
    simp only [FrameReader.exhaust, hnone, Option.toList_none, List.map_nil, List.append_nil]
  have hreached := h.exhaust
  rwa [hexhaust, ← List.map_append] at hreached

/-- A settled reader has in its buffer what the parse of its stream leaves over. -/
theorem Reached.parse_eq (h : Reached limit stream (bodies.map .ok) r) (hsettled : r.Settled) :
    Frame.parse limit stream = ⟨bodies, .incomplete r.state r.buffer⟩ := by
  obtain ⟨hopen, hparse⟩ := h.of_bodies rfl
  have hwhole := hparse []
  rwa [List.append_nil, (if_neg hopen).mp hsettled, Frame.Parsed.behind, List.append_nil] at hwhole

/-- The end is clean on a stream of whole frames, and on one that stops right behind a header. -/
theorem Reached.finish_clean_iff (h : Reached limit stream (bodies.map .ok) r)
    (hsettled : r.Settled) :
    r.finish = .clean ↔ Frame.IsWhole limit stream ∨ Frame.IsHeaderCut limit stream := by
  have hparse := h.parse_eq hsettled
  rw [finish_eq_clean_iff]
  constructor
  · intro hnone
    have hstops := Frame.stops_of_parse hparse
    rw [hnone] at hstops
    rcases hstops.short with hstate | ⟨length, hstate, hlength, hpos⟩
    · refine .inl ⟨bodies, hstops.acceptable, hstops.parts.trans ?_⟩
      rw [hstate]
      exact List.append_nil _
    · refine .inr ⟨bodies, length, hstops.acceptable, hlength, hpos, hstops.parts.trans ?_⟩
      rw [hstate, List.append_nil]
      rfl
  · have hleft {state : FrameState} {before : List (List UInt8)}
        (hends : Frame.parse limit stream = ⟨before, .incomplete state []⟩) : r.buffer = [] := by
      have hending := congrArg Frame.Parsed.ending (hparse.symm.trans hends)
      exact (Frame.Ending.incomplete.inj hending).2
    rintro (hwhole | hcut)
    · obtain ⟨_, hends⟩ := hwhole.parse_eq
      exact hleft hends
    · obtain ⟨_, _, hends⟩ := hcut.parse_eq
      exact hleft hends

/-- On a stream that is cut at some place the end is clean if the cut is between two frames or right
behind a header, and nowhere else. -/
theorem Reached.finish_of_cutAt (h : Reached limit stream (bodies.map .ok) r)
    (hsettled : r.Settled) (hcut : Frame.CutAt limit stream count) :
    r.finish =
      if count = 0 ∨ count = Frame.headerLength then .clean else .broken leftover := by
  have hclean := (h.finish_clean_iff hsettled).trans hcut.clean_iff
  split
  · rename_i hplace
    exact hclean.mpr hplace
  · rename_i hplace
    exact finish_eq_broken fun hfinish => hplace (hclean.mp hfinish)

/-- A stream that is cut at some place is nowhere refused. -/
theorem Reached.exists_bodies_of_cutAt {seen : List Output} (h : Reached limit stream seen r)
    (hcut : Frame.CutAt limit stream count) :
    ∃ bodies : List (List UInt8), seen = bodies.map .ok := by
  cases h with
  | @reading before => exact ⟨before, rfl⟩
  | refused later hparse =>
    obtain ⟨_, _, _, hends, -⟩ := hcut.parse_eq
    have hrefused := hparse []
    rw [List.append_nil, hends] at hrefused
    cases hrefused

/-- Whatever the chunks, a reader that has been asked until no frame is complete tells the end of a
stream that is cut at some place in the same way. -/
theorem run_exhaust_finish (limit : Nat) (actions : List Action)
    (hcut : Frame.CutAt limit (received actions) count) :
    ((start limit).run actions).2.exhaust.2.finish =
      if count = 0 ∨ count = Frame.headerLength then .clean else .broken leftover := by
  obtain ⟨hreached, hsettled⟩ := ((Reached.atStart limit).run actions).exhaust
  rw [List.nil_append] at hreached
  obtain ⟨bodies, hseen⟩ := hreached.exists_bodies_of_cutAt hcut
  rw [hseen] at hreached
  exact hreached.finish_of_cutAt hsettled hcut

/-- On any stream on which it has not failed, such a reader tells a clean end if the stream is made
of whole frames or stops right behind a header, and in no other case. -/
theorem run_exhaust_clean_iff (limit : Nat) (actions : List Action)
    (hopen : ((start limit).run actions).2.exhaust.2.state ≠ .failed) :
    ((start limit).run actions).2.exhaust.2.finish = .clean ↔
      Frame.IsWhole limit (received actions) ∨ Frame.IsHeaderCut limit (received actions) := by
  obtain ⟨hreached, hsettled⟩ := ((Reached.atStart limit).run actions).exhaust
  obtain ⟨bodies, hseen⟩ := hreached.exists_bodies hopen
  rw [List.nil_append, hseen] at hreached
  exact hreached.finish_clean_iff hsettled

end FrameReader

end RemoteCall
