import Mathlib.Data.List.TakeWhile
import RemoteCall.Proofs.Client.ExactlyOnce

/-!
# What closes a session

An open session closes at an event that has a cause for it: it is closed or dropped, the peer
disconnects, a write or a read fails, or a bad frame or a frame that is no response arrives. In that
one step every call that waits fails with what the cause means to it, the table is emptied, the
reason is stored, and whoever asked for the session is told. Any other event leaves it open and
tells nobody.

Responses that arrive in front of the frame that closes the session are still delivered, and the
call whose request cannot be written fails for that before the session closes.
-/

namespace RemoteCall

/-- Whether an effect tells that the session has closed. -/
def SessionEffect.isClosing : SessionEffect → Bool
  | closed => true
  | _ => false

namespace Session

/-- How often effects tell that the session has closed. -/
def closings (effects : List SessionEffect) : Nat := effects.countP SessionEffect.isClosing

/-- What is done in two stretches tells of the close as often as both do together. -/
theorem closings_append (effects more : List SessionEffect) :
    closings (effects ++ more) = closings effects + closings more :=
  List.countP_append

/-- Whether a frame is a response. -/
def decodes (codec : CodecSettings) (body : List UInt8) : Bool :=
  match codec.decodeResponse body with
  | .ok _ => true
  | .error _ => false

/-- Why the first frame that is no response is none. -/
def undecodable? (codec : CodecSettings) (bodies : List (List UInt8)) : Option CallError :=
  bodies.findSome? fun body =>
    match codec.decodeResponse body with
    | .ok _ => none
    | .error e => some (.codec e)

/-- The cause for which an event closes an open session, if it does. -/
def closeCause? (s : Session) : SessionEvent → Option CallError
  | .writeFailed reason =>
    match s.outbound, s.isWriting with
    | _ :: _, true => some (.connectionClosed ("write failed: " ++ (CallError.io reason).message))
    | _, _ => none
  | .receive bytes =>
    (undecodable? s.codec (s.reader.feed bytes).drain.1).or (s.reader.feed bytes).drain.2.1
  | .peerClosed =>
    match s.reader.finish with
    | .clean => some (.connectionClosed "connection closed by peer")
    | .broken cause => some cause
  | .readFailed reason => some (.io reason)
  | .close => some (.connectionClosed "session closed")
  | .drop => some (.connectionClosed "session dropped")
  | _ => none

/-- What an event that closes a session does before: responses in front of the frame that closes it
are delivered, and the call whose request cannot be written fails. -/
def untilClosing (s : Session) : SessionEvent → Session × List SessionEffect
  | .receive bytes =>
    { s with reader := (s.reader.feed bytes).drain.2.2 }.acceptBodies
      ((s.reader.feed bytes).drain.1.takeWhile (decodes s.codec))
  | .writeFailed reason =>
    match s.outbound with
    | next :: _ =>
      s.settle next.requestId next.generation (.error (.transport (CallError.io reason).message))
    | [] => (s, [])
  | _ => (s, [])

/-- The failures of all calls that wait, and the word that the session has closed. -/
def lastWords (s : Session) (cause : CallError) : List SessionEffect :=
  s.slots.map (fun slot => .resolve slot.caller (.error cause.forPending)) ++ [.closed]

/-- The last words tell once that the session has closed. -/
theorem closings_lastWords (s : Session) (cause : CallError) :
    closings (s.lastWords cause) = 1 := by
  rw [lastWords, closings_append, closings, closings, List.countP_map]
  exact congrArg (· + 1) (List.countP_eq_zero.mpr fun _ _ => Bool.false_ne_true)

variable {s : Session}

/-- Closing an open session says the last words. -/
theorem teardown_of_open (hopen : s.isClosed = false) (cause : CallError) :
    s.teardown cause =
      ({ s with closeReason := some (reasonOf cause), slots := [] }, s.lastWords cause) := by
  rw [teardown, hopen, if_neg Bool.false_ne_true]
  rfl

/-- A closed session cannot be closed. -/
theorem teardown_of_closed (hclosed : s.isClosed = true) (cause : CallError) :
    s.teardown cause = (s, []) := by
  rw [teardown, if_pos hclosed]

/-- After that it is closed. -/
theorem isClosed_teardown (cause : CallError) : (s.teardown cause).1.isClosed = true := by
  cases hopen : s.isClosed with
  | true => rw [teardown_of_closed hopen, hopen]
  | false => rw [teardown_of_open hopen]; rfl

/-- A step that leaves the session open or closed as it was, and tells nobody that it has closed. -/
structure Keeps (s : Session) (out : Session × List SessionEffect) : Prop where
  reason : out.1.closeReason = s.closeReason
  codec : out.1.codec = s.codec
  settings : out.1.settings = s.settings
  untold : closings out.2 = 0

/-- Such a step leaves the session open or closed, as it was. -/
theorem Keeps.isClosed_eq {out : Session × List SessionEffect} (h : Keeps s out) :
    out.1.isClosed = s.isClosed := congrArg Option.isSome h.reason

/-- A step that does nothing. -/
theorem keeps_self (s : Session) : Keeps s (s, []) := ⟨rfl, rfl, rfl, rfl⟩

/-- Steps one after the other. -/
theorem Keeps.trans {mid out : Session × List SessionEffect} (h : Keeps s mid)
    (h' : Keeps mid.1 out) : Keeps s (out.1, mid.2 ++ out.2) where
  reason := h'.reason.trans h.reason
  codec := h'.codec.trans h.codec
  settings := h'.settings.trans h.settings
  untold := by rw [closings_append, h.untold, h'.untold]

/-- Ending a call by its generation closes nothing. -/
theorem keeps_settle (id : UInt64) (generation : Nat) (outcome : CallOutcome) :
    Keeps s (s.settle id generation outcome) := by
  unfold settle
  split
  · split
    · exact ⟨rfl, rfl, rfl, rfl⟩
    · exact keeps_self s
  · exact keeps_self s

/-- Taking a slot closes nothing. -/
theorem keeps_enter (caller : Nat) (r : Request) : Keeps s (s.enter caller r) := by
  unfold enter
  split
  · exact ⟨rfl, rfl, rfl, rfl⟩
  · refine ⟨rfl, rfl, rfl, ?_⟩
    dsimp only
    cases s.slot? r.id with
    | none => rfl
    | some slot => rfl

/-- Handing over a request closes nothing. -/
theorem keeps_queue (generation : Nat) : Keeps s (s.queue generation) := by
  unfold queue
  split
  · exact keeps_self s
  · dsimp only
    split
    · exact ⟨rfl, rfl, rfl, rfl⟩
    · have hsettle := keeps_settle
        (s := { s with unqueued := s.unqueued.filter (·.generation != generation) })
      exact ⟨(hsettle _ _ _).reason, (hsettle _ _ _).codec, (hsettle _ _ _).settings,
        (hsettle _ _ _).untold⟩

/-- A call closes nothing. -/
theorem keeps_call (caller : Nat) (r : Request) : Keeps s (s.call caller r) :=
  (keeps_enter caller r).trans (keeps_queue _)

/-- Writing closes nothing. -/
theorem keeps_writeNext : Keeps s s.writeNext := by
  unfold writeNext
  split
  · exact ⟨rfl, rfl, rfl, rfl⟩
  · exact keeps_self s

/-- The end of writing closes nothing. -/
theorem keeps_stopWriting : Keeps s (s.stopWriting, []) := by
  unfold stopWriting
  split
  · exact ⟨rfl, rfl, rfl, rfl⟩
  · exact keeps_self s

/-- A response closes nothing. -/
theorem keeps_deliver (r : Response) : Keeps s (s.deliver r) := by
  unfold deliver
  split
  · exact ⟨rfl, rfl, rfl, rfl⟩
  · exact keeps_self s

/-- A response is delivered to an open session. -/
theorem acceptBody_of_ok (hopen : s.isClosed = false) {body : List UInt8} {r : Response}
    (hr : s.codec.decodeResponse body = .ok r) : s.acceptBody body = s.deliver r := by
  rw [acceptBody, hopen, if_neg Bool.false_ne_true, hr]

/-- A frame that is no response closes an open session. -/
theorem acceptBody_of_error (hopen : s.isClosed = false) {body : List UInt8} {e : CodecError}
    (he : s.codec.decodeResponse body = .error e) : s.acceptBody body = s.teardown (.codec e) := by
  rw [acceptBody, hopen, if_neg Bool.false_ne_true, he]

/-- A closed session takes no frames. -/
theorem acceptBodies_of_closed (hclosed : s.isClosed = true) (bodies : List (List UInt8)) :
    s.acceptBodies bodies = (s, []) := by
  induction bodies with
  | nil => rfl
  | cons body rest ih =>
    rw [acceptBodies, acceptBody, if_pos hclosed]
    dsimp only
    rw [ih]
    rfl

/-- Responses close nothing. -/
theorem keeps_acceptBodies (hopen : s.isClosed = false) {bodies : List (List UInt8)}
    (hall : ∀ body ∈ bodies, decodes s.codec body = true) : Keeps s (s.acceptBodies bodies) := by
  induction bodies generalizing s with
  | nil => exact keeps_self s
  | cons body rest ih =>
    have hbody := hall body List.mem_cons_self
    cases hr : s.codec.decodeResponse body with
    | error e =>
      rw [decodes, hr] at hbody
      cases hbody
    | ok r =>
      have hdeliver : Keeps s (s.deliver r) := keeps_deliver r
      rw [acceptBodies, acceptBody_of_ok hopen hr]
      refine hdeliver.trans (ih (hdeliver.isClosed_eq.trans hopen) fun body' hbody' => ?_)
      rw [hdeliver.codec]
      exact hall body' (List.mem_cons_of_mem _ hbody')

/-- Frames of which each is a response have none that is not. -/
theorem decodes_of_undecodable?_eq_none {codec : CodecSettings} {bodies : List (List UInt8)}
    (h : undecodable? codec bodies = none) : ∀ body ∈ bodies, decodes codec body = true := by
  intro body hbody
  have hnone := List.findSome?_eq_none_iff.mp h body hbody
  rw [decodes]
  cases hr : codec.decodeResponse body with
  | ok r => rfl
  | error e =>
    rw [hr] at hnone
    cases hnone

/-- The first frame that is no response closes an open session, after those in front of it have been
delivered; what stands behind it is dropped. -/
theorem acceptBodies_of_undecodable {bodies : List (List UInt8)} {cause : CallError}
    (hopen : s.isClosed = false) (hcause : undecodable? s.codec bodies = some cause) :
    s.acceptBodies bodies =
      (((s.acceptBodies (bodies.takeWhile (decodes s.codec))).1.teardown cause).1,
        (s.acceptBodies (bodies.takeWhile (decodes s.codec))).2 ++
          ((s.acceptBodies (bodies.takeWhile (decodes s.codec))).1.teardown cause).2) := by
  induction bodies generalizing s with
  | nil => cases hcause
  | cons body rest ih =>
    rw [undecodable?, List.findSome?_cons] at hcause
    cases hr : s.codec.decodeResponse body with
    | error e =>
      have hnot : decodes s.codec body = false := by rw [decodes, hr]
      rw [hr] at hcause
      cases hcause
      rw [List.takeWhile_cons_of_neg (Bool.eq_false_iff.mp hnot), acceptBodies, acceptBodies,
        acceptBody_of_error hopen hr, teardown_of_open hopen]
      dsimp only
      rw [acceptBodies_of_closed rfl]
      exact congrArg (Prod.mk _) (List.append_nil _)
    | ok r =>
      have hyes : decodes s.codec body = true := by rw [decodes, hr]
      have hdeliver : Keeps s (s.deliver r) := keeps_deliver r
      rw [hr] at hcause
      rw [List.takeWhile_cons_of_pos hyes, acceptBodies, acceptBodies, acceptBody_of_ok hopen hr]
      dsimp only
      rw [← hdeliver.codec] at hcause ⊢
      rw [ih (hdeliver.isClosed_eq.trans hopen) hcause, List.append_assoc]

/-- What an event does that closes an open session for a cause. -/
structure Closes (s : Session) (e : SessionEvent) (cause : CallError) : Prop where
  /-- The session is open until it closes. -/
  until_closing : Keeps s (s.untilClosing e)
  /-- Then every call that waits fails, and the word goes out. -/
  effects : (s.step e).2 = (s.untilClosing e).2 ++ (s.untilClosing e).1.lastWords cause
  reason : (s.step e).1.closeReason = some (reasonOf cause)
  slots : (s.step e).1.slots = []
  codec : (s.step e).1.codec = s.codec
  settings : (s.step e).1.settings = s.settings

/-- An event closes an open session if its step is what comes before and the last words. What is
still to be written does not matter. -/
theorem closes_of_step (hopen : s.isClosed = false) {e : SessionEvent} {cause : CallError}
    (huntil : Keeps s (s.untilClosing e)) (outbound : List Outbound) (isWriting : Bool)
    (hstep : s.step e = ({ ((s.untilClosing e).1.teardown cause).1 with outbound, isWriting },
      (s.untilClosing e).2 ++ ((s.untilClosing e).1.teardown cause).2)) : Closes s e cause := by
  rw [teardown_of_open (huntil.isClosed_eq.trans hopen)] at hstep
  constructor
  case until_closing => exact huntil
  case effects => rw [hstep]
  case reason => rw [hstep]
  case slots => rw [hstep]
  case codec => rw [hstep]; exact huntil.codec
  case settings => rw [hstep]; exact huntil.settings

/-- A session that closes at once. -/
theorem closes_of_teardown (hopen : s.isClosed = false) {e : SessionEvent} {cause : CallError}
    (huntil : s.untilClosing e = (s, [])) (hstep : s.step e = s.teardown cause) :
    Closes s e cause := by
  refine closes_of_step hopen (huntil ▸ keeps_self s) (s.teardown cause).1.outbound
    (s.teardown cause).1.isWriting ?_
  rw [hstep, huntil]
  rfl

/-- A failed write closes an open session after the call of the request has failed. -/
theorem closes_writeFailed (hopen : s.isClosed = false) {reason : String} {cause : CallError}
    (hcause : s.closeCause? (.writeFailed reason) = some cause) :
    Closes s (.writeFailed reason) cause := by
  rw [closeCause?] at hcause
  split at hcause
  · rename_i next rest houtbound hwriting
    cases hcause
    have hsettle : Keeps s (s.untilClosing (.writeFailed reason)) := by
      rw [untilClosing, houtbound]
      exact keeps_settle _ _ _
    refine closes_of_step hopen hsettle [] false ?_
    rw [step, writeFailed, untilClosing, houtbound, hwriting]
  · cases hcause

/-- Responses in front of a bad frame close nothing. -/
theorem keeps_untilClosing_receive (hopen : s.isClosed = false) (bytes : List UInt8) :
    Keeps s (s.untilClosing (.receive bytes)) := by
  have hall : ∀ body ∈ (s.reader.feed bytes).drain.1.takeWhile (decodes s.codec),
      decodes s.codec body = true := fun body hbody => List.mem_takeWhile_imp hbody
  have hkeeps := keeps_acceptBodies
    (s := { s with reader := (s.reader.feed bytes).drain.2.2 }) hopen hall
  exact ⟨hkeeps.reason, hkeeps.codec, hkeeps.settings, hkeeps.untold⟩

/-- Bytes that bring a bad frame close an open session after the responses in front of it. -/
theorem closes_receive (hopen : s.isClosed = false) {bytes : List UInt8} {cause : CallError}
    (hcause : s.closeCause? (.receive bytes) = some cause) : Closes s (.receive bytes) cause := by
  rw [closeCause?] at hcause
  have hstep : s.step (.receive bytes) =
      (((s.untilClosing (.receive bytes)).1.teardown cause).1,
        (s.untilClosing (.receive bytes)).2 ++
          ((s.untilClosing (.receive bytes)).1.teardown cause).2) := by
    rw [step, receive, hopen, if_neg Bool.false_ne_true]
    dsimp only
    cases hbad : undecodable? s.codec (s.reader.feed bytes).drain.1 with
    | some e =>
      rw [hbad, Option.some_or] at hcause
      cases hcause
      have hbodies := acceptBodies_of_undecodable
        (s := { s with reader := (s.reader.feed bytes).drain.2.2 }) hopen hbad
      rw [hbodies]
      cases (s.reader.feed bytes).drain.2.1 with
      | none => rfl
      | some e' =>
        dsimp only
        rw [teardown_of_closed (isClosed_teardown cause), List.append_nil]
        rfl
    | none =>
      rw [hbad, Option.none_or] at hcause
      have hkeep : (s.reader.feed bytes).drain.1.takeWhile (decodes s.codec) =
          (s.reader.feed bytes).drain.1 :=
        List.takeWhile_eq_self_iff.mpr (decodes_of_undecodable?_eq_none hbad)
      rw [hcause, untilClosing, hkeep]
  exact closes_of_step hopen (keeps_untilClosing_receive hopen bytes) _ _ hstep

/-- An event that has a cause to close an open session closes it for that cause. -/
theorem closes_of_cause (hopen : s.isClosed = false) {e : SessionEvent} {cause : CallError}
    (hcause : s.closeCause? e = some cause) : Closes s e cause := by
  cases e with
  | writeFailed reason => exact closes_writeFailed hopen hcause
  | receive bytes => exact closes_receive hopen hcause
  | peerClosed =>
    refine closes_of_teardown hopen rfl ?_
    rw [closeCause?] at hcause
    rw [step, peerClosed]
    cases hfinish : s.reader.finish with
    | clean =>
      rw [hfinish] at hcause
      cases hcause
      rfl
    | broken failure =>
      rw [hfinish] at hcause
      cases hcause
      rfl
  | readFailed reason =>
    cases hcause
    exact closes_of_teardown hopen rfl rfl
  | close =>
    cases hcause
    refine closes_of_teardown hopen rfl ?_
    rw [step, close, hopen, if_neg Bool.false_ne_true]
  | drop =>
    cases hcause
    exact closes_of_teardown hopen rfl rfl
  | _ => cases hcause

/-- An event without such a cause leaves an open session open. -/
theorem keeps_of_no_cause (hopen : s.isClosed = false) {e : SessionEvent}
    (hcause : s.closeCause? e = none) : Keeps s (s.step e) := by
  cases e with
  | call caller r => exact keeps_call caller r
  | enter caller r => exact keeps_enter caller r
  | queue generation => exact keeps_queue generation
  | writeNext => exact keeps_writeNext
  | stopWriting => exact keeps_stopWriting
  | expire requestId generation => exact keeps_settle requestId generation _
  | writeFailed reason =>
    rw [closeCause?] at hcause
    rw [step, writeFailed]
    cases houtbound : s.outbound with
    | nil => exact keeps_self s
    | cons next rest =>
      cases hwriting : s.isWriting with
      | false => exact keeps_self s
      | true =>
        rw [houtbound, hwriting] at hcause
        cases hcause
  | receive bytes =>
    rw [closeCause?] at hcause
    obtain ⟨hbad, hfailure⟩ := Option.or_eq_none_iff.mp hcause
    rw [step, receive, hopen, if_neg Bool.false_ne_true]
    dsimp only
    rw [hfailure]
    have hkeeps := keeps_acceptBodies
      (s := { s with reader := (s.reader.feed bytes).drain.2.2 }) hopen
      (decodes_of_undecodable?_eq_none hbad)
    exact ⟨hkeeps.reason, hkeeps.codec, hkeeps.settings, hkeeps.untold⟩
  | peerClosed =>
    rw [closeCause?] at hcause
    split at hcause
    · cases hcause
    · cases hcause
  | readFailed reason => cases hcause
  | close => cases hcause
  | drop => cases hcause

/-- No step opens a session that has closed. -/
theorem isClosed_step (hclosed : s.isClosed = true) (e : SessionEvent) :
    (s.step e).1.isClosed = true := by
  cases e with
  | call caller r => exact (keeps_call caller r).isClosed_eq.trans hclosed
  | enter caller r => exact (keeps_enter caller r).isClosed_eq.trans hclosed
  | queue generation => exact (keeps_queue generation).isClosed_eq.trans hclosed
  | writeNext => exact keeps_writeNext.isClosed_eq.trans hclosed
  | stopWriting => exact keeps_stopWriting.isClosed_eq.trans hclosed
  | expire requestId generation =>
    exact (keeps_settle requestId generation _).isClosed_eq.trans hclosed
  | writeFailed reason =>
    rw [step, writeFailed]
    split
    · exact isClosed_teardown _
    · exact hclosed
  | receive bytes =>
    rw [step, receive, if_pos hclosed]
    exact hclosed
  | peerClosed =>
    rw [step, peerClosed]
    split
    · exact isClosed_teardown _
    · exact isClosed_teardown _
  | readFailed reason => exact isClosed_teardown _
  | close =>
    rw [step, close, if_pos hclosed]
    exact hclosed
  | drop => exact isClosed_teardown _

/-- No run opens a session that has closed. -/
theorem isClosed_run (hclosed : s.isClosed = true) (events : List SessionEvent) :
    (s.run events).1.isClosed = true := by
  induction events generalizing s with
  | nil => exact hclosed
  | cons e rest ih => exact ih (isClosed_step hclosed e)

end Session

end RemoteCall
