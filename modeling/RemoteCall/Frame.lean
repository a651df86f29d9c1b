import RemoteCall.CallError
import RemoteCall.Wire.Reader

/-!
# Frames

A stream is cut into frames: two bytes that mark a header, four bytes with the length of the body,
and the body. A frame reader keeps the bytes that have arrived and not been used. A wrong mark or a
length above the limit is fatal: it is reported once, the buffer is dropped, and no frame ever
comes out again.
-/

namespace RemoteCall

namespace Frame

/-- The number that marks a header. -/
def magic : Nat := 1729

/-- The length of a header. -/
def headerLength : Nat := 6

/-- The limit on bodies where none is given: ten times 2^20 bytes. -/
def standardLimit : Nat := 10 * 1024 * 1024

/-- Whether a number can be a limit on bodies: at least 1, and it fits the length of a header. -/
def isLimit (n : Nat) : Bool := 1 ≤ n && n < UInt32.size

/-- The wording for a number that cannot be a limit on bodies. -/
def limitMessage (n : Nat) : String :=
  s!"max frame size must be between 1 and 4294967295 bytes (got {n})"

/-- The number that bytes spell, most significant first. -/
def numberOf (bytes : List UInt8) : Nat := bytes.foldl (fun value b => value * 256 + b.toNat) 0

/-- The frame of a body; its length is a 32-bit word. -/
def wrap (body : List UInt8) : List UInt8 :=
  bigEndianBytes 2 magic ++ bigEndianBytes 4 body.length ++ body

/-- The frame of a body that keeps to a limit. -/
def encode (limit : Nat) (body : List UInt8) : Except CallError (List UInt8) :=
  if limit < body.length then .error (.frameTooLarge body.length limit) else .ok (wrap body)

/-- A body is framed when it keeps to the limit, by a header with its length. -/
theorem encode_eq_ok_iff {limit : Nat} {body wire : List UInt8} :
    encode limit body = .ok wire ↔ body.length ≤ limit ∧ wire = wrap body := by
  unfold encode
  split
  · simp only [reduceCtorEq, false_iff, not_and]
    omega
  · have h : body.length ≤ limit := by omega
    simp [h, eq_comm]

/-- What is answered when a body is encoded into a buffer, and the buffer afterwards. A body that
is refused adds nothing to it. -/
def encodeInto (limit : Nat) (buffer body : List UInt8) : Except CallError Unit × List UInt8 :=
  match encode limit body with
  | .ok wire => (.ok (), buffer ++ wire)
  | .error e => (.error e, buffer)

end Frame

/-- What a frame reader waits for. -/
inductive FrameState
  | header
  /-- The header has been used, and so many bytes of body belong to it. -/
  | body (length : Nat)
  | failed
  deriving DecidableEq

/-- A stream being cut into frames. -/
structure FrameReader where
  /-- The longest body that is accepted. -/
  limit : Nat
  state : FrameState
  /-- The bytes that have arrived and not been used. -/
  buffer : List UInt8

namespace FrameReader

/-- A reader at the start of a stream. -/
def start (limit : Nat) : FrameReader := ⟨limit, .header, []⟩

/-- The reader after more bytes have arrived. -/
def feed (r : FrameReader) (bytes : List UInt8) : FrameReader :=
  { r with buffer := r.buffer ++ bytes }

/-- Whether a bad header has been met. -/
def isFailed (r : FrameReader) : Bool := r.state == .failed

/-- Gives up on the stream. -/
def fail (r : FrameReader) (e : CallError) : Except CallError (Option (List UInt8)) × FrameReader :=
  (.error e, { r with state := .failed, buffer := [] })

/-- The body of a frame whose header has been used, if all of it has arrived. -/
def nextBody (r : FrameReader) (length : Nat) :
    Except CallError (Option (List UInt8)) × FrameReader :=
  if r.buffer.length < length then (.ok none, { r with state := .body length })
  else
    (.ok (some (r.buffer.take length)),
      { r with state := .header, buffer := r.buffer.drop length })

/-- The next frame, if all of it has arrived. A complete header is used even if its body is not
there yet. -/
def next (r : FrameReader) : Except CallError (Option (List UInt8)) × FrameReader :=
  match r.state with
  | .failed => r.fail (.protocol "stream framing already failed")
  | .body length => r.nextBody length
  | .header =>
    if r.buffer.length < Frame.headerLength then (.ok none, r)
    else
      let found := Frame.numberOf (r.buffer.take 2)
      let length := Frame.numberOf ((r.buffer.drop 2).take 4)
      if found ≠ Frame.magic then r.fail (.badMagic found)
      else if r.limit < length then r.fail (.frameTooLarge length r.limit)
      else { r with buffer := r.buffer.drop Frame.headerLength }.nextBody length

/-- How a stream ends for its reader. -/
inductive StreamEnd
  /-- No byte is left over. -/
  | clean
  | broken (cause : CallError)

/-- The end of a stream of which no further frame is complete. -/
def finish (r : FrameReader) : StreamEnd :=
  if r.buffer.isEmpty then .clean else .broken (.io "bytes remaining on stream")

/-- Frames taken one after the other, at most so many, up to the first failure or until none is
complete. -/
def takeFrames : (most : Nat) → FrameReader →
    List (List UInt8) × Option CallError × FrameReader
  | 0, r => ([], none, r)
  | most + 1, r =>
    match r.next with
    | (.error e, r) => ([], some e, r)
    | (.ok none, r) => ([], none, r)
    | (.ok (some body), r) =>
      let (bodies, failure, r) := takeFrames most r
      (body :: bodies, failure, r)

/-- All frames that are complete. Each but the first takes at least a header from the buffer, so
the length of the buffer bounds their number. -/
def drain (r : FrameReader) : List (List UInt8) × Option CallError × FrameReader :=
  takeFrames (r.buffer.length + 2) r

end FrameReader

end RemoteCall
