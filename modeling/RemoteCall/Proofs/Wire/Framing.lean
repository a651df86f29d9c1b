import RemoteCall.Frame

/-!
# Framing and the cuts of a stream

A frame reader sees a stream in pieces: bytes arrive in chunks of any size, and frames are asked for
at any time in between. `Frame.parse` reads the same stream in one pass, with all of it before its
eyes. At each moment the bytes that have arrived parse into the frames that have been given out,
followed by what the reader's state and buffer parse into, whatever is still to come
(`FrameReader.Reached`). So the cuts do not matter: the frames and the first failure are those of
the parse.
-/

namespace RemoteCall

namespace Frame

/-- How the frames of a stream end. -/
inductive Ending
  /-- The stream stops before the end of a header, or before the end of a body whose header has
  been read. -/
  | incomplete (state : FrameState) (rest : List UInt8)
  /-- A header is not acceptable. -/
  | refused (cause : CallError)

/-- The frames of a stream. -/
@[ext]
structure Parsed where
  bodies : List (List UInt8)
  ending : Ending

/-- A parse with frames in front of it. -/
def Parsed.behind (p : Parsed) (bodies : List (List UInt8)) : Parsed :=
  ⟨bodies ++ p.bodies, p.ending⟩

/-- One pass over a stream: the bodies of its complete frames up to the first bad header, and what
stands in the place of the next frame. -/
def parse (limit : Nat) : List UInt8 → Parsed
  | m₁ :: m₀ :: l₃ :: l₂ :: l₁ :: l₀ :: rest =>
    let mark := numberOf [m₁, m₀]
    let length := numberOf [l₃, l₂, l₁, l₀]
    if mark ≠ magic then ⟨[], .refused (.badMagic mark)⟩
    else if limit < length then ⟨[], .refused (.frameTooLarge length limit)⟩
    else if rest.length < length then ⟨[], .incomplete (.body length) rest⟩
    else (parse limit (rest.drop length)).behind [rest.take length]
  | short => ⟨[], .incomplete .header short⟩
termination_by stream => stream.length
decreasing_by
  simp only [List.length_drop, List.length_cons]
  omega

variable {limit : Nat}

/-- What follows a header that announces a body of some length. -/
def parseBody (limit length : Nat) (rest : List UInt8) : Parsed :=
  if rest.length < length then ⟨[], .incomplete (.body length) rest⟩
  else (parse limit (rest.drop length)).behind [rest.take length]

/-- What is shorter than a header is the beginning of one. -/
theorem parse_of_short {stream : List UInt8} (h : stream.length < headerLength) :
    parse limit stream = ⟨[], .incomplete .header stream⟩ := by
  match stream with
  | _ :: _ :: _ :: _ :: _ :: _ :: rest =>
    simp only [List.length_cons, headerLength] at h
    omega
  | [] | [_] | [_, _] | [_, _, _] | [_, _, _, _] | [_, _, _, _, _] => simp [parse]

/-- The three things that a complete header can lead to. -/
theorem parse_of_header {stream : List UInt8} (h : headerLength ≤ stream.length) :
    parse limit stream =
      if numberOf (stream.take 2) ≠ magic then
        ⟨[], .refused (.badMagic (numberOf (stream.take 2)))⟩
      else if limit < numberOf ((stream.drop 2).take 4) then
        ⟨[], .refused (.frameTooLarge (numberOf ((stream.drop 2).take 4)) limit)⟩
      else parseBody limit (numberOf ((stream.drop 2).take 4)) (stream.drop headerLength) := by
  match stream with
  | _ :: _ :: _ :: _ :: _ :: _ :: rest => rw [parse]; rfl
  | [] | [_] | [_, _] | [_, _, _] | [_, _, _, _] | [_, _, _, _, _] =>
    simp only [List.length_cons, List.length_nil, headerLength] at h
    omega

/-- A stream is only given up for the mark or for the length of a header. -/
theorem cause_of_refused {stream : List UInt8} {cause : CallError}
    (h : (parse limit stream).ending = .refused cause) :
    (∃ mark, mark ≠ magic ∧ cause = .badMagic mark) ∨
      ∃ length, limit < length ∧ cause = .frameTooLarge length limit := by
  by_cases hshort : stream.length < headerLength
  · simp [parse_of_short hshort] at h
  rw [parse_of_header (Nat.le_of_not_lt hshort)] at h
  split at h
  case isTrue hmark => exact .inl ⟨_, hmark, (Ending.refused.inj h).symm⟩
  split at h
  case isTrue hlong => exact .inr ⟨_, hlong, (Ending.refused.inj h).symm⟩
  unfold parseBody at h
  split at h
  · simp at h
  · exact cause_of_refused h
termination_by stream.length
decreasing_by
  simp only [List.length_drop, headerLength] at hshort ⊢
  omega

end Frame

namespace FrameReader

/-- What a program does with a frame reader. -/
inductive Action
  | feed (bytes : List UInt8)
  /-- The next frame is asked for. -/
  | decode

/-- What a program notices of a frame reader: a frame or a failure. That no frame is complete is
not an output of the stream. -/
abbrev Output := Except CallError (List UInt8)

/-- The output in the answer to a request for a frame. -/
def outputs : Except CallError (Option (List UInt8)) → List Output
  | .ok none => []
  | .ok (some body) => [.ok body]
  | .error e => [.error e]

/-- The bytes that actions feed, in order. -/
def received : List Action → List UInt8
  | [] => []
  | .feed bytes :: rest => bytes ++ received rest
  | .decode :: rest => received rest

/-- How often actions ask for a frame. -/
def requests : List Action → Nat
  | [] => 0
  | .feed _ :: rest => requests rest
  | .decode :: rest => requests rest + 1

/-- What comes out of a reader under actions, in order, and the reader afterwards. -/
def run : FrameReader → List Action → List Output × FrameReader
  | r, [] => ([], r)
  | r, .feed bytes :: rest => run (r.feed bytes) rest
  | r, .decode :: rest =>
    let (answer, r) := r.next
    let (later, r) := run r rest
    (outputs answer ++ later, r)

/-- What comes out of a reader that is asked for frames until none is complete, and the reader
afterwards. -/
def exhaust (r : FrameReader) : List Output × FrameReader :=
  let (bodies, failure, r) := r.drain
  (bodies.map .ok ++ failure.toList.map .error, r)

/-- The failure of a reader that has failed before. -/
def alreadyFailed : CallError := .protocol "stream framing already failed"

/-- What the bytes in the buffer of a reader and those still to come parse into. -/
def ahead (r : FrameReader) (more : List UInt8) : Frame.Parsed :=
  match r.state with
  | .header => Frame.parse r.limit (r.buffer ++ more)
  | .body length => Frame.parseBody r.limit length (r.buffer ++ more)
  | .failed => ⟨[], .refused alreadyFailed⟩

/-- How many frames a reader can give out at most from its buffer, and the answer after them. Only
the first frame can be without a header in the buffer. -/
def span (r : FrameReader) : Nat :=
  match r.state with
  | .body _ => r.buffer.length + 2
  | _ => r.buffer.length + 1

/-- What a request for a frame does to a reader that has not failed: what lies ahead is told with
nothing lost, and a failure is told as the parse tells it. -/
inductive Asked (r : FrameReader) : Except CallError (Option (List UInt8)) × FrameReader → Prop
  | frame {body : List UInt8} {r' : FrameReader} (hlimit : r'.limit = r.limit)
      (hstate : r'.state = .header) (hspan : r'.span < r.span)
      (hahead : ∀ more, r.ahead more = (r'.ahead more).behind [body]) :
      Asked r (.ok (some body), r')
  | waiting {r' : FrameReader} (hlimit : r'.limit = r.limit) (hstate : r'.state ≠ .failed)
      (hahead : ∀ more, r.ahead more = r'.ahead more)
      (hrest : r'.ahead [] = ⟨[], .incomplete r'.state r'.buffer⟩) :
      Asked r (.ok none, r')
  | refused {e : CallError} (hahead : ∀ more, r.ahead more = ⟨[], .refused e⟩) :
      Asked r (.error e, ⟨r.limit, .failed, []⟩)

/-- A body is asked for where its header has just been used or was used before. -/
theorem asked_nextBody {r q : FrameReader} {length : Nat} (hlimit : q.limit = r.limit)
    (hspan : q.buffer.length + 1 < r.span)
    (hahead : ∀ more, r.ahead more = Frame.parseBody r.limit length (q.buffer ++ more)) :
    Asked r (q.nextBody length) := by
  unfold nextBody
  split
  case isTrue hshort =>
    refine .waiting hlimit (by simp) (fun more => ?_) ?_
    · rw [hahead more, ← hlimit]
      rfl
    · simp only [ahead, List.append_nil, Frame.parseBody, if_pos hshort]
  case isFalse hlong =>
    have hle : length ≤ q.buffer.length := Nat.le_of_not_lt hlong
    refine .frame hlimit rfl ?_ (fun more => ?_)
    · have hdrop : (q.buffer.drop length).length + 1 ≤ q.buffer.length + 1 := by
        rw [List.length_drop]
        omega
      exact Nat.lt_of_le_of_lt hdrop hspan
    · have hmore : ¬ (q.buffer ++ more).length < length := by
        rw [List.length_append]
        omega
      rw [hahead more, Frame.parseBody, if_neg hmore, List.take_append_of_le_length hle,
        List.drop_append_of_le_length hle, ← hlimit]
      rfl

/-- A request does what the parse foresees. -/
theorem asked_next {r : FrameReader} (hopen : r.state ≠ .failed) : Asked r r.next := by
  obtain ⟨limit, state, buffer⟩ := r
  cases state with
  | failed => exact absurd rfl hopen
  | body length => exact asked_nextBody rfl (Nat.lt_succ_self _) fun _ => rfl
  | header =>
    simp only [next]
    split
    case isTrue hshort =>
      refine .waiting rfl (by simp) (fun _ => rfl) ?_
      simp only [ahead, List.append_nil, Frame.parse_of_short hshort]
    case isFalse hfull =>
      have hle : Frame.headerLength ≤ buffer.length := Nat.le_of_not_lt hfull
      have hahead := fun more => @Frame.parse_of_header limit _
        (show Frame.headerLength ≤ (buffer ++ more).length by rw [List.length_append]; omega)
      simp only [Frame.headerLength] at hle
      simp only [List.take_append_of_le_length (show 2 ≤ buffer.length by omega),
        List.drop_append_of_le_length (show 2 ≤ buffer.length by omega),
        List.drop_append_of_le_length (show Frame.headerLength ≤ buffer.length from hle),
        List.take_append_of_le_length (show 4 ≤ (buffer.drop 2).length by
          rw [List.length_drop]; omega)] at hahead
      split
      case isTrue hmark => exact .refused fun more => (hahead more).trans (if_pos hmark)
      case isFalse hmark =>
        split
        case isTrue hlong =>
          exact .refused fun more => (hahead more).trans ((if_neg hmark).trans (if_pos hlong))
        case isFalse hlong =>
          refine asked_nextBody rfl ?_ fun more =>
            (hahead more).trans ((if_neg hmark).trans (if_neg hlong))
          simp only [span, List.length_drop, Frame.headerLength]
          omega

/-- A reader that has failed answers every request with the same failure. -/
theorem next_of_failed {r : FrameReader} (hfailed : r.state = .failed) :
    r.next = (.error alreadyFailed, ⟨r.limit, .failed, []⟩) := by
  unfold next
  rw [hfailed]
  rfl

/-- Where a reader can be after the bytes of a stream have arrived and outputs have come out. -/
inductive Reached (limit : Nat) (stream : List UInt8) : List Output → FrameReader → Prop
  /-- The frames so far are the first of the stream, whatever is still to come. -/
  | reading {bodies : List (List UInt8)} {r : FrameReader} (hlimit : r.limit = limit)
      (hopen : r.state ≠ .failed)
      (hparse : ∀ more, Frame.parse limit (stream ++ more) = (r.ahead more).behind bodies) :
      Reached limit stream (bodies.map .ok) r
  /-- The frames were all there will ever be, and the failure of the parse came after them. -/
  | refused {bodies : List (List UInt8)} {cause : CallError} {buffer : List UInt8} (later : Nat)
      (hparse : ∀ more, Frame.parse limit (stream ++ more) = ⟨bodies, .refused cause⟩) :
      Reached limit stream
        (bodies.map .ok ++ .error cause :: List.replicate later (.error alreadyFailed))
        ⟨limit, .failed, buffer⟩

namespace Reached

variable {limit : Nat} {stream : List UInt8} {seen : List Output} {r : FrameReader}

/-- A reader that has seen nothing is where an empty stream leads. -/
theorem atStart (limit : Nat) : Reached limit [] [] (start limit) :=
  have hnone : Reached limit [] (([] : List (List UInt8)).map .ok) (start limit) :=
    .reading rfl (by simp [start]) fun _ => rfl
  hnone

/-- Bytes that arrive are not lost. -/
theorem feed (h : Reached limit stream seen r) (bytes : List UInt8) :
    Reached limit (stream ++ bytes) seen (r.feed bytes) := by
  cases h with
  | reading hlimit hopen hparse =>
    refine .reading hlimit hopen fun more => ?_
    have hahead : r.ahead (bytes ++ more) = (r.feed bytes).ahead more := by
      simp only [ahead, FrameReader.feed, List.append_assoc]
    rw [List.append_assoc, hparse, hahead]
  | refused later hparse =>
    refine .refused later fun more => ?_
    rw [List.append_assoc, hparse]

/-- A request brings out the next output of the stream. -/
theorem decode (h : Reached limit stream seen r) :
    Reached limit stream (seen ++ outputs r.next.1) r.next.2 := by
  cases h with
  | @reading bodies _ hlimit hopen hparse =>
    generalize hnext : r.next = answered
    have hasked := hnext ▸ asked_next hopen
    cases hasked with
    | @frame body r' hlimit' hstate _ hahead =>
      have hbodies : bodies.map .ok ++ outputs (.ok (some body)) =
          ((bodies ++ [body]).map .ok : List Output) := by
        rw [List.map_append]
        rfl
      rw [hbodies]
      refine .reading (hlimit'.trans hlimit) (by simp [hstate]) fun more => ?_
      rw [hparse, hahead, Frame.Parsed.behind, Frame.Parsed.behind, ← List.append_assoc]
      rfl
    | waiting hlimit' hstate hahead _ =>
      simp only [outputs, List.append_nil]
      exact .reading (hlimit'.trans hlimit) hstate fun more => by rw [hparse, hahead]
    | refused hahead =>
      rw [hlimit]
      refine .refused 0 fun more => ?_
      rw [hparse, hahead, Frame.Parsed.behind, List.append_nil]
  | refused later hparse =>
    rw [next_of_failed rfl, outputs, List.append_assoc, List.cons_append,
      ← List.replicate_succ']
    exact .refused (later + 1) hparse

/-- Any stretch of feeding and asking, from a point that was reached. -/
theorem run (h : Reached limit stream seen r) (actions : List Action) :
    Reached limit (stream ++ received actions) (seen ++ (r.run actions).1) (r.run actions).2 := by
  induction actions generalizing stream seen r with
  | nil => simpa only [received, FrameReader.run, List.append_nil] using h
  | cons action rest ih =>
    cases action with
    | feed bytes =>
      rw [received, FrameReader.run, ← List.append_assoc]
      exact ih (h.feed bytes)
    | decode =>
      rw [received, FrameReader.run, ← List.append_assoc]
      exact ih h.decode

end Reached

/-- A reader that gives out no frame: nothing more is complete in its buffer, or it has failed and
has nothing in its buffer. -/
def Settled (r : FrameReader) : Prop :=
  if r.state = .failed then r.buffer = []
  else r.ahead [] = ⟨[], .incomplete r.state r.buffer⟩

/-- A request gives out a frame and there is less to give out, or the reader is settled. -/
theorem next_span_or_settled (r : FrameReader) :
    (∃ body, r.next.1 = .ok (some body)) ∧ r.next.2.span < r.span ∨
      (∀ body, r.next.1 ≠ .ok (some body)) ∧ r.next.2.Settled := by
  by_cases hopen : r.state = .failed
  · rw [next_of_failed hopen]
    exact .inr ⟨by simp, rfl⟩
  · generalize hnext : r.next = answered
    have hasked := hnext ▸ asked_next hopen
    cases hasked with
    | @frame body _ _ _ hspan _ => exact .inl ⟨⟨body, rfl⟩, hspan⟩
    | waiting _ hstate _ hrest => exact .inr ⟨by simp, (if_neg hstate).mpr hrest⟩
    | refused _ => exact .inr ⟨by simp, rfl⟩

/-- A settled reader that has not failed has no frame to give out and does not change. -/
theorem Settled.next_eq {r : FrameReader} (h : r.Settled) (hopen : r.state ≠ .failed) :
    r.next = (.ok none, r) := by
  have hrest := (if_neg hopen).mp h
  generalize hnext : r.next = answered
  have hasked := hnext ▸ asked_next hopen
  cases hasked with
  | frame _ _ _ hahead => simp [hahead, Frame.Parsed.behind] at hrest
  | refused hahead => simp [hahead] at hrest
  | @waiting r' hlimit _ hahead hrest' =>
    rw [hahead, hrest'] at hrest
    obtain ⟨hstate, hbuffer⟩ := Frame.Ending.incomplete.inj (Frame.Parsed.mk.inj hrest).2
    rw [show r' = r from (mk.injEq ..).mpr ⟨hlimit, hstate, hbuffer⟩]

/-- Taking frames one after the other reaches a point at which the reader is settled. -/
theorem Reached.takeFrames {limit most : Nat} {stream : List UInt8} {seen : List Output}
    {r : FrameReader} (h : Reached limit stream seen r) (hmost : r.span ≤ most) :
    let taken := r.takeFrames most
    Reached limit stream (seen ++ (taken.1.map .ok ++ taken.2.1.toList.map .error)) taken.2.2 ∧
      taken.2.2.Settled := by
  induction most generalizing seen r with
  | zero =>
    unfold span at hmost
    split at hmost <;> omega
  | succ most ih =>
    have hdecode := h.decode
    have hspan := r.next_span_or_settled
    simp only [FrameReader.takeFrames]
    rcases hnext : r.next with ⟨answer, r'⟩
    rw [hnext] at hdecode hspan
    rcases answer with e | _ | body
    · exact ⟨hdecode, by simpa using hspan⟩
    · exact ⟨hdecode, by simpa using hspan⟩
    · have hless : r'.span < r.span := by simpa using hspan
      have hrest := ih hdecode (show r'.span ≤ most by omega)
      dsimp only at hrest
      rw [List.append_assoc] at hrest
      exact hrest

/-- Asking until no frame is complete reaches a point at which the reader is settled. -/
theorem Reached.exhaust {limit : Nat} {stream : List UInt8} {seen : List Output}
    {r : FrameReader} (h : Reached limit stream seen r) :
    Reached limit stream (seen ++ r.exhaust.1) r.exhaust.2 ∧ r.exhaust.2.Settled := by
  have hspan : r.span ≤ r.buffer.length + 2 := by
    unfold span
    split <;> omega
  exact h.takeFrames hspan

/-- Whatever still arrives and however often a frame is asked for, a reader that has failed gives
out failures only and ends with an empty buffer. -/
theorem run_of_failed {r : FrameReader} (hfailed : r.state = .failed) (actions : List Action) :
    r.run (actions ++ [.decode]) =
      (List.replicate (requests actions + 1) (.error alreadyFailed), ⟨r.limit, .failed, []⟩) := by
  induction actions generalizing r with
  | nil =>
    simp only [List.nil_append, run, next_of_failed hfailed]
    rfl
  | cons action rest ih =>
    cases action with
    | feed bytes => exact ih hfailed
    | decode =>
      simp only [List.cons_append, run, next_of_failed hfailed, ih]
      rfl

/-- **The cuts of a stream do not matter.** Whatever the limit, however the stream is cut into
chunks and whenever frames are asked for in between, once the reader has been asked until no frame
is complete: what came out are the frames of the stream parsed in one pass, in order. If the stream
stops inside a frame, nothing else came out, and the reader holds the bytes of that frame without
its header where the header was complete. If the stream has a bad header, the failure that names its
mark or its length came out once behind the frames; behind that, now and after all further input,
there are only repeated failures, and the buffer is empty after each. -/
theorem run_exhaust_eq_parse (limit : Nat) (actions : List Action) :
    let (seen, r) := (start limit).run actions
    let (drained, last) := r.exhaust
    let parsed := Frame.parse limit (received actions)
    match parsed.ending with
    | .incomplete state rest =>
      seen ++ drained = parsed.bodies.map .ok ∧ last = ⟨limit, state, rest⟩ ∧
        last.next = (.ok none, last)
    | .refused cause =>
      (∃ later, seen ++ drained =
        parsed.bodies.map .ok ++ .error cause :: List.replicate later (.error alreadyFailed)) ∧
      ((∃ mark, mark ≠ Frame.magic ∧ cause = .badMagic mark) ∨
        ∃ length, limit < length ∧ cause = .frameTooLarge length limit) ∧
      last = ⟨limit, .failed, []⟩ ∧
      ∀ more, last.run (more ++ [.decode]) =
        (List.replicate (requests more + 1) (.error alreadyFailed), last) := by
  obtain ⟨hreached, hsettled⟩ := ((Reached.atStart limit).run actions).exhaust
  simp only [List.nil_append] at hreached
  generalize hseen : ((start limit).run actions).1 ++ ((start limit).run actions).2.exhaust.1 = out
    at hreached
  generalize hlast : ((start limit).run actions).2.exhaust.2 = last at hreached hsettled
  dsimp only
  rw [hseen, hlast]
  cases hreached with
  | reading hlimit hopen hparse =>
    have hrest := (if_neg hopen).mp hsettled
    have hwhole := hparse []
    rw [List.append_nil, hrest, Frame.Parsed.behind, List.append_nil] at hwhole
    rw [hwhole]
    refine ⟨rfl, ?_, hsettled.next_eq hopen⟩
    rw [← hlimit]
  | refused later hparse =>
    have hwhole := hparse []
    rw [List.append_nil] at hwhole
    have hcause := Frame.cause_of_refused (congrArg Frame.Parsed.ending hwhole)
    obtain rfl : _ = [] := (if_pos rfl).mp hsettled
    rw [hwhole]
    exact ⟨⟨later, rfl⟩, hcause, rfl, fun more => run_of_failed rfl more⟩

/-- A header that arrives in two pieces, with a request after the first. -/
example : (start 5).run [.feed [6, 193, 0, 0], .decode, .feed [0, 1, 7], .decode] =
    ([.ok [7]], ⟨5, .header, []⟩) := rfl

end FrameReader

end RemoteCall
