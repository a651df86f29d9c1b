import Mathlib.Data.List.Perm.Subperm
import RemoteCall.Client.TimedSession
import RemoteCall.Proofs.Client.ExactlyOnce

/-!
# Requests are written once

A call that is accepted leaves its request behind, under the id and the generation of its slot. The
request is handed over and written, or dropped; nothing else is ever written, and nothing twice.
Right behind a request its timer is armed, and no timer is armed otherwise. So what is written, what
is unwritten and what is dropped are together the requests of the accepted calls.

No event but the end of a timer makes a call fail because of a timeout.
-/

namespace RemoteCall

/-- A call that is accepted: its request, the slot that it takes and the body that is to be
written. -/
structure AcceptedCall where
  request : Request
  slot : Slot
  body : List UInt8

/-- The request of a call as it waits to be written. -/
def AcceptedCall.outbound (call : AcceptedCall) : Outbound :=
  ⟨call.slot.requestId, call.slot.generation, call.body⟩

/-- What is done when a request is written: its frame goes out and its timer is armed. -/
def Outbound.effects (o : Outbound) : List SessionEffect :=
  [.write (Frame.wrap o.body), .arm o.requestId o.generation]

namespace SessionEffect

/-- Whether something is written or a timer is armed. -/
def isTransmission : SessionEffect → Bool
  | write _ => true
  | arm _ _ => true
  | _ => false

/-- The caller whose call fails because of a timeout, with its milliseconds. -/
def timeout? : SessionEffect → Option (Nat × Nat)
  | resolve caller (.error (.timeout millis)) => some (caller, millis)
  | _ => none

end SessionEffect

/-- What is written and armed, in order. -/
def transmissions (effects : List SessionEffect) : List SessionEffect :=
  effects.filter SessionEffect.isTransmission

/-- The callers whose calls fail because of a timeout, in order. -/
def timeouts (effects : List SessionEffect) : List (Nat × Nat) :=
  effects.filterMap SessionEffect.timeout?

/-- What is done later is written and armed later. -/
theorem transmissions_append (effects more : List SessionEffect) :
    transmissions (effects ++ more) = transmissions effects ++ transmissions more :=
  List.filter_append ..

/-- What is done later lets calls time out later. -/
theorem timeouts_append (effects more : List SessionEffect) :
    timeouts (effects ++ more) = timeouts effects ++ timeouts more :=
  List.filterMap_append

namespace Session

/-- The requests of accepted calls that may still be written. -/
def unwritten (s : Session) : List Outbound := s.unqueued ++ s.outbound

/-- The call that is accepted, unless it fails at once. -/
def acceptedFor (s : Session) (caller : Nat) (r : Request) : List AcceptedCall :=
  match s.prepare r with
  | .ok body => [⟨r, ⟨r.id, s.lastGeneration + 1, caller⟩, body⟩]
  | .error _ => []

/-- The calls that are accepted at an event. -/
def acceptedBy (s : Session) : SessionEvent → List AcceptedCall
  | .call caller r => s.acceptedFor caller r
  | .enter caller r => s.acceptedFor caller r
  | _ => []

/-- The requests that are written at an event. -/
def sentBy (s : Session) : SessionEvent → List Outbound
  | .writeNext =>
    match s.outbound, s.isWriting with
    | next :: _, true => [next]
    | _, _ => []
  | _ => []

/-- The slots that are taken are those of the accepted calls. -/
theorem map_slot_acceptedBy (s : Session) (e : SessionEvent) :
    (s.acceptedBy e).map (·.slot) = s.takenBy e := by
  have hfor : ∀ caller r, (s.acceptedFor caller r).map (·.slot) = s.slotFor caller r := by
    intro caller r
    unfold acceptedFor slotFor
    cases s.prepare r with
    | ok body => rfl
    | error e => rfl
  cases e with
  | call caller r => exact hfor caller r
  | enter caller r => exact hfor caller r
  | _ => rfl

/-- A request is encoded before its call is accepted. -/
theorem encodeRequest_of_prepare {s : Session} {r : Request} {body : List UInt8}
    (h : s.prepare r = .ok body) : s.codec.encodeRequest r = .ok body := by
  unfold prepare at h
  split at h
  · cases h
  · rename_i encoded hencoded
    dsimp only at h
    split at h
    · cases h
    · split at h
      · cases h
      · cases h
        exact hencoded

/-- An accepted call has the slot of its request id and the body of its request. -/
theorem encoded_of_mem_acceptedBy {s : Session} {e : SessionEvent} {call : AcceptedCall}
    (h : call ∈ s.acceptedBy e) :
    s.codec.encodeRequest call.request = .ok call.body ∧
      call.slot.requestId = call.request.id := by
  have hfor : ∀ caller r, call ∈ s.acceptedFor caller r →
      s.codec.encodeRequest call.request = .ok call.body ∧
        call.slot.requestId = call.request.id := by
    intro caller r hcall
    unfold acceptedFor at hcall
    split at hcall
    · rename_i body hbody
      obtain rfl := List.mem_singleton.mp hcall
      exact ⟨encodeRequest_of_prepare hbody, rfl⟩
    · exact absurd hcall List.not_mem_nil
  cases e with
  | call caller r => exact hfor caller r h
  | enter caller r => exact hfor caller r h
  | _ => exact absurd h List.not_mem_nil

/-- What a stretch does to the requests: the calls that were accepted, the requests that were
written and what was done outside. -/
structure Posts (s s' : Session) (accepted : List AcceptedCall) (sent : List Outbound)
    (effects : List SessionEffect) : Prop where
  settings : s'.settings = s.settings
  codec : s'.codec = s.codec
  /-- What is written or unwritten was unwritten before or has been left behind by a call. -/
  conserved : (sent ++ s'.unwritten).Subperm (s.unwritten ++ accepted.map AcceptedCall.outbound)
  /-- Nothing else is written, and no other timer is armed. -/
  transmitted : transmissions effects = sent.flatMap Outbound.effects
  /-- No call fails because of a timeout. -/
  untimed : timeouts effects = []

namespace Posts

variable {s s' s'' : Session} {accepted accepted' : List AcceptedCall}
  {sent sent' : List Outbound} {effects effects' : List SessionEffect}

/-- Stretches that follow each other. -/
theorem trans (h : Posts s s' accepted sent effects) (h' : Posts s' s'' accepted' sent' effects') :
    Posts s s'' (accepted ++ accepted') (sent ++ sent') (effects ++ effects') where
  settings := h'.settings.trans h.settings
  codec := h'.codec.trans h.codec
  conserved := by
    have hlast := (List.subperm_append_left sent).mpr h'.conserved
    have hfirst := (List.subperm_append_right (accepted'.map AcceptedCall.outbound)).mpr h.conserved
    rw [List.append_assoc, List.map_append, ← List.append_assoc s.unwritten]
    rw [← List.append_assoc sent s'.unwritten] at hlast
    exact hlast.trans hfirst
  transmitted := by
    rw [transmissions_append, h.transmitted, h'.transmitted, List.flatMap_append]
  untimed := by rw [timeouts_append, h.untimed, h'.untimed]; rfl

/-- A stretch in which no call is accepted and nothing is written; requests may be dropped. -/
theorem silent (hsettings : s'.settings = s.settings) (hcodec : s'.codec = s.codec)
    (hunwritten : s'.unwritten.Subperm s.unwritten) (htransmitted : transmissions effects = [])
    (huntimed : timeouts effects = []) : Posts s s' [] [] effects where
  settings := hsettings
  codec := hcodec
  conserved := by
    rw [List.map_nil, List.append_nil]
    exact hunwritten
  transmitted := htransmitted
  untimed := huntimed

/-- Requests may be dropped at the end. -/
theorem andDrop (h : Posts s s' accepted sent effects) (hsettings : s''.settings = s'.settings)
    (hcodec : s''.codec = s'.codec) (hunwritten : s''.unwritten.Sublist s'.unwritten) :
    Posts s s'' accepted sent effects where
  settings := hsettings.trans h.settings
  codec := hcodec.trans h.codec
  conserved := ((hunwritten.append_left sent).subperm).trans h.conserved
  transmitted := h.transmitted
  untimed := h.untimed

end Posts

section Steps

variable (s : Session)

/-- Nothing changes about the requests, and no call fails because of a timeout. -/
theorem posts_self : Posts s s [] [] [] := .silent rfl rfl (.refl _) rfl rfl

/-- Ending a call writes nothing. -/
theorem posts_settle (id : UInt64) (generation : Nat) {e : CallError}
    (he : ∀ millis, e ≠ .timeout millis) :
    Posts s (s.settle id generation (.error e)).1 [] []
      (s.settle id generation (.error e)).2 := by
  have huntimed : ∀ caller, timeouts [.resolve caller (.error e)] = [] := by
    intro caller
    cases e with
    | timeout millis => exact absurd rfl (he millis)
    | _ => rfl
  unfold settle
  split
  · split
    · exact .silent rfl rfl (.refl _) rfl (huntimed _)
    · exact s.posts_self
  · exact s.posts_self

/-- A call that cannot be made does not fail because of a timeout. -/
theorem prepare_ne_timeout (r : Request) (millis : Nat) :
    s.prepare r ≠ .error (.timeout millis) := by
  unfold prepare
  split
  · exact fun h => nomatch h
  · dsimp only
    split
    · exact fun h => nomatch h
    · split
      · exact fun h => nomatch h
      · exact fun h => nomatch h

/-- A call that is accepted leaves its request behind. -/
theorem posts_enter (caller : Nat) (r : Request) :
    Posts s (s.enter caller r).1 (s.acceptedFor caller r) [] (s.enter caller r).2 := by
  unfold enter acceptedFor
  cases hprepare : s.prepare r with
  | error e =>
    have huntimed : timeouts [.resolve caller (.error e)] = [] := by
      cases e with
      | timeout millis => exact absurd hprepare (s.prepare_ne_timeout r millis)
      | _ => rfl
    exact .silent rfl rfl (.refl _) rfl huntimed
  | ok body =>
    constructor
    case settings => rfl
    case codec => rfl
    case conserved => exact (perm_append_swap s.unqueued [_] s.outbound).subperm
    case transmitted =>
      dsimp only
      cases s.slot? r.id with
      | none => rfl
      | some stale => rfl
    case untimed =>
      dsimp only
      cases s.slot? r.id with
      | none => rfl
      | some stale => rfl

/-- A request is handed over, or dropped if the writer has stopped. -/
theorem posts_queue (generation : Nat) :
    Posts s (s.queue generation).1 [] [] (s.queue generation).2 := by
  unfold queue
  split
  · exact s.posts_self
  · rename_i o ho
    have hmem := List.mem_of_find?_eq_some ho
    have hgeneration : o.generation = generation := key_of_find? ho
    have hrest : (s.unqueued.filter (·.generation != generation)).Sublist s.unqueued :=
      List.filter_sublist
    dsimp only
    split
    · have hnot : o ∉ s.unqueued.filter (·.generation != generation) := fun ho' =>
        bne_iff_ne.mp (List.mem_filter.mp ho').2 hgeneration
      have hmoved : (o :: s.unqueued.filter (·.generation != generation)).Subperm s.unqueued :=
        List.cons_subperm_of_not_mem_of_mem hnot hmem hrest.subperm
      refine .silent rfl rfl ?_ rfl rfl
      have hperm : (s.unqueued.filter (·.generation != generation) ++ (s.outbound ++ [o])).Perm
          ((o :: s.unqueued.filter (·.generation != generation)) ++ s.outbound) := by
        rw [← List.append_assoc]
        exact List.perm_append_singleton o _
      exact hperm.subperm.trans ((List.subperm_append_right s.outbound).mpr hmoved)
    · have hdropped : Posts s
          { s with unqueued := s.unqueued.filter (·.generation != generation) } [] [] [] :=
        .silent rfl rfl ((List.subperm_append_right s.outbound).mpr hrest.subperm) rfl rfl
      exact hdropped.trans (posts_settle _ _ _ fun millis h => nomatch h)

/-- A call leaves its request behind and hands it over. -/
theorem posts_call (caller : Nat) (r : Request) :
    Posts s (s.call caller r).1 (s.acceptedFor caller r) [] (s.call caller r).2 := by
  have hboth := (s.posts_enter caller r).trans
    (posts_queue (s.enter caller r).1 (s.lastGeneration + 1))
  rwa [List.append_nil, List.append_nil] at hboth

/-- The request that comes next is written. -/
theorem posts_writeNext : Posts s s.writeNext.1 [] (s.sentBy .writeNext) s.writeNext.2 := by
  unfold writeNext
  split
  · rename_i next rest houtbound hwriting
    have hsent : s.sentBy .writeNext = [next] := by rw [sentBy, houtbound, hwriting]
    have hperm : (next :: (s.unqueued ++ rest)).Perm s.unwritten := by
      rw [unwritten, houtbound]
      exact List.perm_middle.symm
    rw [hsent]
    constructor
    case settings => rfl
    case codec => rfl
    case conserved =>
      rw [List.map_nil, List.append_nil]
      exact hperm.subperm
    case transmitted => rfl
    case untimed => rfl
  · rename_i hnot
    have hsent : s.sentBy .writeNext = [] := by
      rw [sentBy]
      split
      · rename_i houtbound hwriting
        exact absurd hwriting (hnot _ _ houtbound)
      · rfl
    rw [hsent]
    exact s.posts_self

/-- The failures of all calls are no timeouts. -/
theorem timeouts_failAll (slots : List Slot) (cause : CallError) :
    timeouts (slots.map (fun slot => .resolve slot.caller (.error cause.forPending)) ++
      [.closed]) = [] := by
  have hcause : ∀ millis, cause.forPending ≠ .timeout millis := by
    intro millis h
    rcases cause.forPending_cases with ⟨-, text, htext⟩ | ⟨-, text, htext⟩
    · cases h.symm.trans htext
    · cases h.symm.trans htext
  generalize cause.forPending = e at hcause
  induction slots with
  | nil => rfl
  | cons slot rest ih =>
    cases e with
    | timeout millis => exact absurd rfl (hcause millis)
    | _ => exact ih

/-- The failures of all calls write nothing. -/
theorem transmissions_failAll (slots : List Slot) (cause : CallError) :
    transmissions (slots.map (fun slot => .resolve slot.caller (.error cause)) ++
      [.closed]) = [] := by
  induction slots with
  | nil => rfl
  | cons slot rest ih => exact ih

/-- Closing writes nothing. -/
theorem posts_teardown (cause : CallError) :
    Posts s (s.teardown cause).1 [] [] (s.teardown cause).2 := by
  unfold teardown
  split
  · exact s.posts_self
  · exact .silent rfl rfl (.refl _) (transmissions_failAll s.slots cause.forPending)
      (timeouts_failAll s.slots cause)

/-- A response writes nothing. -/
theorem posts_deliver (r : Response) : Posts s (s.deliver r).1 [] [] (s.deliver r).2 := by
  unfold deliver
  split
  · exact .silent rfl rfl (.refl _) rfl rfl
  · exact s.posts_self

/-- A frame that arrives writes nothing. -/
theorem posts_acceptBody (body : List UInt8) :
    Posts s (s.acceptBody body).1 [] [] (s.acceptBody body).2 := by
  unfold acceptBody
  split
  · exact s.posts_self
  · split
    · exact s.posts_deliver _
    · exact s.posts_teardown _

/-- Neither do any number of frames. -/
theorem posts_acceptBodies (bodies : List (List UInt8)) :
    Posts s (s.acceptBodies bodies).1 [] [] (s.acceptBodies bodies).2 := by
  induction bodies generalizing s with
  | nil => exact s.posts_self
  | cons body rest ih => exact (s.posts_acceptBody body).trans (ih _)

/-- Bytes that arrive write nothing. -/
theorem posts_receive (bytes : List UInt8) :
    Posts s (s.receive bytes).1 [] [] (s.receive bytes).2 := by
  unfold receive
  split
  · exact s.posts_self
  · dsimp only
    have hread : Posts s { s with reader := (s.reader.feed bytes).drain.2.2 } [] [] [] :=
      .silent rfl rfl (.refl _) rfl rfl
    have hbodies := hread.trans (posts_acceptBodies _ (s.reader.feed bytes).drain.1)
    cases (s.reader.feed bytes).drain.2.1 with
    | none => exact hbodies
    | some e => exact hbodies.trans (posts_teardown _ e)

/-- A failed write drops all requests that have been handed over. -/
theorem posts_writeFailed (reason : String) :
    Posts s (s.writeFailed reason).1 [] [] (s.writeFailed reason).2 := by
  unfold writeFailed
  split
  · rename_i next _ _ _
    dsimp only
    have hsettle := s.posts_settle next.requestId next.generation
      (e := .transport (CallError.io reason).message) fun millis h => nomatch h
    have hclosed := hsettle.trans (posts_teardown _
      (.connectionClosed ("write failed: " ++ (CallError.io reason).message)))
    exact hclosed.andDrop rfl rfl ((List.nil_sublist _).append_left _)
  · exact s.posts_self

/-- The end of writing drops them too. -/
theorem posts_stopWriting : Posts s s.stopWriting [] [] [] := by
  unfold stopWriting
  split
  · exact s.posts_self.andDrop rfl rfl ((List.nil_sublist _).append_left _)
  · exact s.posts_self

/-- The end of the stream writes nothing. -/
theorem posts_peerClosed : Posts s s.peerClosed.1 [] [] s.peerClosed.2 := by
  unfold peerClosed
  split
  · exact s.posts_teardown _
  · exact s.posts_teardown _

/-- Closing on demand writes nothing. -/
theorem posts_close : Posts s s.close.2.1 [] [] s.close.2.2 := by
  unfold close
  split
  · exact s.posts_self
  · exact s.posts_teardown _

/-- What every event does to the requests, but for the end of a timer. -/
theorem posts_step {e : SessionEvent} (he : e.isExpiry = false) :
    Posts s (s.step e).1 (s.acceptedBy e) (s.sentBy e) (s.step e).2 := by
  cases e with
  | call caller r => exact s.posts_call caller r
  | enter caller r => exact s.posts_enter caller r
  | queue generation => exact s.posts_queue generation
  | writeNext => exact s.posts_writeNext
  | writeFailed reason => exact s.posts_writeFailed reason
  | stopWriting => exact s.posts_stopWriting
  | receive bytes => exact s.posts_receive bytes
  | peerClosed => exact s.posts_peerClosed
  | readFailed reason => exact s.posts_teardown _
  | expire requestId generation => cases he
  | close => exact s.posts_close
  | drop => exact s.posts_teardown _

end Steps

end Session

end RemoteCall
