import RemoteCall.Proofs.Client.Teardown
import RemoteCall.Proofs.Client.Transmission

/-!
# Requests stand in line

A call that is accepted has its request encoded within the limit on frames before it takes its slot;
one that is not leaves the session as it is. The requests of accepted calls wait to be handed over,
then to be written, in line (`Lined`): they are written in the order in which they were handed over,
and none is lost while the session is open. Where each call hands over its request before the next
one begins, that is the order of the calls.
-/

namespace RemoteCall

namespace Session

variable {s s' : Session}

/-- Why a call fails at once: its request cannot be encoded, is too large, or the session has
closed. -/
inductive Refuses (s : Session) (r : Request) : CallError → Prop
  | unencodable {e : CodecError} (encoding : s.codec.encodeRequest r = .error e) :
      Refuses s r (.codec e)
  | tooLarge {body : List UInt8} (encoding : s.codec.encodeRequest r = .ok body)
      (large : s.settings.maxFrameSize < body.length) :
      Refuses s r (.frameTooLarge body.length s.settings.maxFrameSize)
  | closed {body : List UInt8} (encoding : s.codec.encodeRequest r = .ok body)
      (fits : body.length ≤ s.settings.maxFrameSize) {reason : String}
      (closed : s.closeReason = some reason) : Refuses s r (.connectionClosed reason)

/-- These are the failures of a call. -/
theorem prepare_eq_error_iff {r : Request} {e : CallError} :
    s.prepare r = .error e ↔ s.Refuses r e := by
  constructor
  · intro h
    unfold prepare at h
    split at h
    · rename_i cause hcause
      cases h
      exact .unencodable hcause
    · rename_i body hbody
      dsimp only at h
      split at h
      · rename_i hlarge
        cases h
        exact .tooLarge hbody hlarge
      · rename_i hfits
        split at h
        · rename_i reason hreason
          cases h
          exact .closed hbody (Nat.le_of_not_lt hfits) hreason
        · cases h
  · intro h
    cases h with
    | unencodable hcause => rw [prepare, hcause]
    | tooLarge hbody hlarge =>
      rw [prepare, hbody]
      exact if_pos hlarge
    | closed hbody hfits hreason =>
      rw [prepare, hbody, hreason]
      exact if_neg (Nat.not_lt.mpr hfits)

/-- A request that can be sent is encoded within the limit, and the session is open. -/
theorem prepare_eq_ok_iff {r : Request} {body : List UInt8} :
    s.prepare r = .ok body ↔ s.codec.encodeRequest r = .ok body ∧
      body.length ≤ s.settings.maxFrameSize ∧ s.isClosed = false := by
  constructor
  · intro h
    have hbody := encodeRequest_of_prepare h
    rw [prepare, hbody] at h
    dsimp only at h
    split at h
    · cases h
    · rename_i hfits
      split at h
      · cases h
      · rename_i hopen
        exact ⟨hbody, Nat.le_of_not_lt hfits, congrArg Option.isSome hopen⟩
  · rintro ⟨hbody, hfits, hopen⟩
    rw [prepare, hbody, Option.not_isSome_iff_eq_none.mp (ne_true_of_eq_false hopen)]
    exact if_neg (Nat.not_lt.mpr hfits)

/-- The request that is handed to the writer under a generation. -/
def handedAt (s : Session) (generation : Nat) : List Outbound :=
  if s.isWriting then (s.unqueued.find? (·.generation == generation)).toList else []

/-- The requests that are handed to the writer at an event. -/
def handedBy (s : Session) : SessionEvent → List Outbound
  | .call caller r => (s.enter caller r).1.handedAt (s.lastGeneration + 1)
  | .queue generation => s.handedAt generation
  | _ => []

/-- Whether the calls of a run follow each other: none begins while a request waits to be handed
over. -/
def InTurn (s : Session) : List SessionEvent → Prop
  | [] => True
  | e :: rest => (e.made ≠ [] → s.unqueued = []) ∧ (s.step e).1.InTurn rest

/-- Nothing changes about the requests. -/
structure Rests (s s' : Session) : Prop where
  unqueued : s'.unqueued = s.unqueued
  outbound : s'.outbound = s.outbound
  isWriting : s'.isWriting = s.isWriting
  lastGeneration : s'.lastGeneration = s.lastGeneration

/-- Nothing changes about the requests of a session that stays as it is. -/
theorem rests_self (s : Session) : Rests s s := ⟨rfl, rfl, rfl, rfl⟩

/-- Two changes that concern no request are one such change. -/
theorem Rests.trans {s'' : Session} (h : Rests s s') (h' : Rests s' s'') : Rests s s'' where
  unqueued := h'.unqueued.trans h.unqueued
  outbound := h'.outbound.trans h.outbound
  isWriting := h'.isWriting.trans h.isWriting
  lastGeneration := h'.lastGeneration.trans h.lastGeneration

section Resting

variable (s)

/-- Ending a call leaves the requests alone. -/
theorem rests_settle (id : UInt64) (generation : Nat) (outcome : CallOutcome) :
    Rests s (s.settle id generation outcome).1 := by
  unfold settle
  split
  · split
    · exact ⟨rfl, rfl, rfl, rfl⟩
    · exact rests_self s
  · exact rests_self s

/-- So does closing. -/
theorem rests_teardown (cause : CallError) : Rests s (s.teardown cause).1 := by
  unfold teardown
  split
  · exact rests_self s
  · exact ⟨rfl, rfl, rfl, rfl⟩

/-- So does a frame that arrives. -/
theorem rests_acceptBody (body : List UInt8) : Rests s (s.acceptBody body).1 := by
  unfold acceptBody
  split
  · exact rests_self s
  · split
    · unfold deliver
      split
      · exact ⟨rfl, rfl, rfl, rfl⟩
      · exact rests_self s
    · exact rests_teardown s _

/-- So do any number of frames. -/
theorem rests_acceptBodies (bodies : List (List UInt8)) : Rests s (s.acceptBodies bodies).1 := by
  induction bodies generalizing s with
  | nil => exact rests_self s
  | cons body rest ih => exact (s.rests_acceptBody body).trans (ih _)

/-- So do bytes that arrive. -/
theorem rests_receive (bytes : List UInt8) : Rests s (s.receive bytes).1 := by
  unfold receive
  split
  · exact rests_self s
  · dsimp only
    have hread : Rests s { s with reader := (s.reader.feed bytes).drain.2.2 } :=
      ⟨rfl, rfl, rfl, rfl⟩
    have hbodies := hread.trans (rests_acceptBodies _ (s.reader.feed bytes).drain.1)
    split
    · exact hbodies
    · exact hbodies.trans (rests_teardown _ _)

/-- So does the end of the stream. -/
theorem rests_peerClosed : Rests s s.peerClosed.1 := by
  unfold peerClosed
  split
  · exact rests_teardown s _
  · exact rests_teardown s _

/-- So does closing on demand. -/
theorem rests_close : Rests s s.close.2.1 := by
  unfold close
  split
  · exact rests_self s
  · exact rests_teardown s _

end Resting

/-- How the requests of a session stand in line after the calls that were accepted, the requests
that were handed to the writer and those that were written. The calls may follow each other, in
turn. -/
structure Lined (turn : Prop) (s : Session) (accepted : List AcceptedCall)
    (handed sent : List Outbound) : Prop where
  /-- A request waits to be handed over under the generation of its call. -/
  issued : ∀ o ∈ s.unqueued, o.generation ≤ s.lastGeneration
  distinct : (s.unqueued.map (·.generation)).Nodup
  /-- Requests are written in the order in which they were handed over. -/
  written : sent ++ s.outbound <+: handed
  /-- What was handed over or waits for it are requests of accepted calls. -/
  entered : (handed ++ s.unqueued).Subperm (accepted.map AcceptedCall.outbound)
  /-- While requests are written none of them is lost. -/
  complete : s.isWriting = true → handed = sent ++ s.outbound ∧
    (handed ++ s.unqueued).Perm (accepted.map AcceptedCall.outbound)
  /-- Writing does not stop before the session has closed. -/
  stopped : s.isWriting = false → s.isClosed = true
  /-- In turn, one request at most waits to be handed over. -/
  single : turn → s.unqueued.length ≤ 1
  /-- In turn, requests are handed over in the order of their calls. -/
  inOrder : turn → handed <+: accepted.map AcceptedCall.outbound
  /-- In turn, none is lost while requests are written. -/
  whole : turn → s.isWriting = true →
    handed ++ s.unqueued = accepted.map AcceptedCall.outbound

namespace Lined

variable {turn : Prop} {accepted : List AcceptedCall} {handed sent : List Outbound}

/-- A fresh session has no requests. -/
theorem start (turn : Prop) (settings : ClientSettings) (codec : CodecSettings) :
    Lined turn (Session.start settings codec) [] [] [] where
  issued := List.forall_mem_nil _
  distinct := List.nodup_nil
  written := List.prefix_rfl
  entered := .refl _
  complete := fun _ => ⟨rfl, .refl _⟩
  stopped := fun hstopped => nomatch hstopped
  single := fun _ => Nat.zero_le 1
  inOrder := fun _ => List.prefix_rfl
  whole := fun _ _ => rfl

variable (h : Lined turn s accepted handed sent)

include h

/-- An open session writes. -/
theorem isWriting_of_open (hopen : s.isClosed = false) : s.isWriting = true := by
  cases hwriting : s.isWriting with
  | true => rfl
  | false => exact absurd (h.stopped hwriting) (ne_true_of_eq_false hopen)

/-- The line stays as it is where nothing changes about the requests. -/
theorem rest (hrests : Rests s s') (hclosed : s.isClosed = true → s'.isClosed = true) :
    Lined turn s' accepted handed sent := by
  constructor
  case issued => rw [hrests.unqueued, hrests.lastGeneration]; exact h.issued
  case distinct => rw [hrests.unqueued]; exact h.distinct
  case written => rw [hrests.outbound]; exact h.written
  case entered => rw [hrests.unqueued]; exact h.entered
  case complete => rw [hrests.isWriting, hrests.outbound, hrests.unqueued]; exact h.complete
  case stopped => rw [hrests.isWriting]; exact fun hstopped => hclosed (h.stopped hstopped)
  case single => rw [hrests.unqueued]; exact h.single
  case inOrder => exact h.inOrder
  case whole => rw [hrests.isWriting, hrests.unqueued]; exact h.whole

/-- When writing ends, the requests that have been handed over leave the line. -/
theorem stop (hclosed : s.isClosed = true) :
    Lined turn { s with outbound := [], isWriting := false } accepted handed sent := by
  have hfront : sent <+: sent ++ s.outbound := List.prefix_append ..
  constructor
  case issued => exact h.issued
  case distinct => exact h.distinct
  case written =>
    rw [List.append_nil]
    exact hfront.trans h.written
  case entered => exact h.entered
  case complete => exact fun hwriting => nomatch hwriting
  case stopped => exact fun _ => hclosed
  case single => exact h.single
  case inOrder => exact h.inOrder
  case whole => exact fun _ hwriting => nomatch hwriting

/-- The request that comes next is written. -/
theorem write {next : Outbound} {rest : List Outbound} (hnext : s.outbound = next :: rest) :
    Lined turn { s with outbound := rest } accepted handed (sent ++ [next]) := by
  have hsplit : sent ++ [next] ++ rest = sent ++ s.outbound := by
    rw [hnext, List.append_assoc, List.singleton_append]
  constructor
  case issued => exact h.issued
  case distinct => exact h.distinct
  case written =>
    dsimp only
    rw [hsplit]
    exact h.written
  case entered => exact h.entered
  case complete =>
    dsimp only
    rw [hsplit]
    exact h.complete
  case stopped => exact h.stopped
  case single => exact h.single
  case inOrder => exact h.inOrder
  case whole => exact h.whole

/-- A new call puts its request at the end of those that wait to be handed over. -/
theorem take (call : AcceptedCall) (hopen : s.isClosed = false)
    (hturn : turn → s.unqueued = []) (hnumber : call.slot.generation = s.lastGeneration + 1)
    (hunqueued : s'.unqueued = s.unqueued ++ [call.outbound])
    (houtbound : s'.outbound = s.outbound) (hwriting : s'.isWriting = s.isWriting)
    (hlast : s'.lastGeneration = s.lastGeneration + 1) (hclosed : s'.isClosed = s.isClosed) :
    Lined turn s' (accepted ++ [call]) handed sent := by
  have hmap : (accepted ++ [call]).map AcceptedCall.outbound =
      accepted.map AcceptedCall.outbound ++ [call.outbound] := List.map_append
  obtain ⟨hhanded, hperm⟩ := h.complete (h.isWriting_of_open hopen)
  have hall : (handed ++ s'.unqueued).Perm ((accepted ++ [call]).map AcceptedCall.outbound) := by
    rw [hunqueued, hmap, ← List.append_assoc]
    exact hperm.append_right _
  constructor
  case issued =>
    intro o ho
    rw [hlast]
    rw [hunqueued] at ho
    rcases List.mem_append.mp ho with hold | hnew
    · exact Nat.le_succ_of_le (h.issued o hold)
    · rw [List.mem_singleton.mp hnew]
      exact Nat.le_of_eq hnumber
  case distinct =>
    rw [hunqueued, List.map_append]
    refine List.Nodup.append h.distinct (List.nodup_singleton _) ?_
    rintro generation hold hnew
    obtain ⟨o, ho, rfl⟩ := List.mem_map.mp hold
    have hle := h.issued o ho
    have hsame : o.generation = call.slot.generation := List.mem_singleton.mp hnew
    omega
  case written => rw [houtbound]; exact h.written
  case entered => exact hall.subperm
  case complete =>
    rw [houtbound]
    exact fun _ => ⟨hhanded, hall⟩
  case stopped => rw [hwriting, hclosed]; exact h.stopped
  case single =>
    intro ht
    rw [hunqueued, hturn ht]
    exact Nat.le_refl 1
  case inOrder =>
    intro ht
    rw [hmap]
    exact (h.inOrder ht).trans (List.prefix_append ..)
  case whole =>
    intro ht _
    rw [hunqueued, hmap, ← h.whole ht (h.isWriting_of_open hopen), List.append_assoc]

/-- A call takes its slot or leaves the line as it is. -/
theorem enter (caller : Nat) (r : Request) (hturn : turn → s.unqueued = []) :
    Lined turn (s.enter caller r).1 (accepted ++ s.acceptedFor caller r) handed sent := by
  unfold Session.enter acceptedFor
  cases hprepare : s.prepare r with
  | error e =>
    rw [List.append_nil]
    exact h
  | ok body =>
    have hopen := (prepare_eq_ok_iff.mp hprepare).2.2
    exact h.take ⟨r, ⟨r.id, s.lastGeneration + 1, caller⟩, body⟩ hopen hturn rfl rfl rfl rfl rfl rfl

/-- A request that is handed over goes to the end of those that wait to be written. -/
theorem hand {o : Outbound} {generation : Nat} (hwriting : s.isWriting = true)
    (ho : s.unqueued.find? (·.generation == generation) = some o) :
    Lined turn { s with
        unqueued := s.unqueued.filter (·.generation != generation)
        outbound := s.outbound ++ [o] } accepted (handed ++ [o]) sent := by
  have hsub : (s.unqueued.filter (·.generation != generation)).Sublist s.unqueued :=
    List.filter_sublist
  obtain ⟨hhanded, hperm⟩ := h.complete hwriting
  have hmoved : handed ++ [o] = sent ++ (s.outbound ++ [o]) := by
    rw [hhanded, List.append_assoc]
  have hline : (handed ++ [o] ++ s.unqueued.filter (·.generation != generation)).Perm
      (accepted.map AcceptedCall.outbound) := by
    rw [List.append_assoc]
    exact ((perm_cons_filter_key h.distinct ho).symm.append_left handed).trans hperm
  -- In turn, the request is the only one that waits.
  have hwhole : turn →
      handed ++ [o] = accepted.map AcceptedCall.outbound ∧
        s.unqueued.filter (·.generation != generation) = [] := by
    intro ht
    have hone := perm_cons_filter_key h.distinct ho
    have hlength := hone.length_eq
    have hsingle := h.single ht
    rw [List.length_cons] at hlength
    have hnil : s.unqueued.filter (·.generation != generation) = [] :=
      List.length_eq_zero_iff.mp (by omega)
    have hone' : s.unqueued = [o] := List.perm_singleton.mp (hnil ▸ hone)
    exact ⟨hone' ▸ h.whole ht hwriting, hnil⟩
  constructor
  case issued => exact fun o' ho' => h.issued o' (hsub.subset ho')
  case distinct => exact h.distinct.sublist (hsub.map _)
  case written => exact hmoved ▸ List.prefix_rfl
  case entered => exact hline.subperm
  case complete => exact fun _ => ⟨hmoved, hline⟩
  case stopped => exact fun hstopped => absurd hwriting (ne_true_of_eq_false hstopped)
  case single => exact fun ht => Nat.le_trans hsub.length_le (h.single ht)
  case inOrder =>
    intro ht
    exact (hwhole ht).1 ▸ List.prefix_rfl
  case whole =>
    intro ht _
    dsimp only
    rw [(hwhole ht).1, (hwhole ht).2, List.append_nil]

/-- Once writing has ended, a request that should be handed over leaves the line. -/
theorem lose (generation : Nat) (hstopped : s.isWriting = false) :
    Lined turn { s with unqueued := s.unqueued.filter (·.generation != generation) } accepted
      handed sent := by
  have hsub : (s.unqueued.filter (·.generation != generation)).Sublist s.unqueued :=
    List.filter_sublist
  constructor
  case issued => exact fun o ho => h.issued o (hsub.subset ho)
  case distinct => exact h.distinct.sublist (hsub.map _)
  case written => exact h.written
  case entered => exact (hsub.append_left handed).subperm.trans h.entered
  case complete => exact fun hwriting => absurd hwriting (ne_true_of_eq_false hstopped)
  case stopped => exact h.stopped
  case single => exact fun ht => Nat.le_trans hsub.length_le (h.single ht)
  case inOrder => exact h.inOrder
  case whole => exact fun _ hwriting => absurd hwriting (ne_true_of_eq_false hstopped)

/-- A request is handed over, if there is one under the generation. -/
theorem queue (generation : Nat) :
    Lined turn (s.queue generation).1 accepted (handed ++ s.handedAt generation) sent := by
  unfold Session.queue handedAt
  cases ho : s.unqueued.find? (·.generation == generation) with
  | none =>
    rw [Option.toList_none, ite_self, List.append_nil]
    exact h
  | some o =>
    dsimp only
    by_cases hwriting : s.isWriting = true
    · rw [if_pos hwriting, if_pos hwriting]
      exact h.hand hwriting ho
    · rw [if_neg hwriting, if_neg hwriting, List.append_nil]
      have hlost := h.lose generation (Bool.not_eq_true _ ▸ hwriting)
      refine hlost.rest (rests_settle _ _ _ _) fun hclosed => ?_
      exact (keeps_settle _ _ _).isClosed_eq.trans hclosed

/-- The request that comes next is written, if requests are still written. -/
theorem writeNext : Lined turn s.writeNext.1 accepted handed (sent ++ s.sentBy .writeNext) := by
  cases houtbound : s.outbound with
  | nil =>
    have hsent : s.sentBy .writeNext = [] := by rw [sentBy, houtbound]
    rw [Session.writeNext, hsent, houtbound, List.append_nil]
    exact h
  | cons next rest =>
    cases hwriting : s.isWriting with
    | true =>
      have hsent : s.sentBy .writeNext = [next] := by rw [sentBy, houtbound, hwriting]
      have hstep : s.writeNext = ({ s with outbound := rest }, next.effects) := by
        rw [Session.writeNext, houtbound, hwriting]
        rfl
      rw [hstep, hsent]
      exact h.write houtbound
    | false =>
      have hsent : s.sentBy .writeNext = [] := by rw [sentBy, houtbound, hwriting]
      rw [Session.writeNext, hsent, houtbound, hwriting, List.append_nil]
      exact h

/-- A write that fails ends writing. -/
theorem writeFailed (reason : String) :
    Lined turn (s.writeFailed reason).1 accepted handed sent := by
  unfold Session.writeFailed
  split
  · exact (h.rest ((rests_settle s _ _ _).trans (rests_teardown _ _))
      fun _ => isClosed_teardown _).stop (isClosed_teardown _)
  · exact h

/-- Writing ends once the session has closed. -/
theorem stopWriting : Lined turn s.stopWriting accepted handed sent := by
  unfold Session.stopWriting
  split
  · rename_i hclosed
    exact h.stop hclosed
  · exact h

/-- Without new calls, and with nothing handed over or written, the books stay as they are. -/
theorem still : Lined turn s (accepted ++ []) (handed ++ []) (sent ++ []) := by
  rw [List.append_nil, List.append_nil, List.append_nil]
  exact h

/-- Every event keeps the line, if in turn no call begins while a request waits to be handed
over. -/
theorem step (e : SessionEvent) (hturn : turn → e.made ≠ [] → s.unqueued = []) :
    Lined turn (s.step e).1 (accepted ++ s.acceptedBy e) (handed ++ s.handedBy e)
      (sent ++ s.sentBy e) := by
  have hclosed := fun hclosed => isClosed_step (s := s) hclosed e
  cases e with
  | call caller r =>
    have hentered := h.enter caller r fun ht => hturn ht (List.cons_ne_nil _ _)
    exact (List.append_nil sent).symm ▸ hentered.queue (s.lastGeneration + 1)
  | enter caller r =>
    have hentered := h.enter caller r fun ht => hturn ht (List.cons_ne_nil _ _)
    exact (List.append_nil sent).symm ▸ (List.append_nil handed).symm ▸ hentered
  | queue generation =>
    exact (List.append_nil sent).symm ▸ (List.append_nil accepted).symm ▸ h.queue generation
  | writeNext =>
    exact (List.append_nil handed).symm ▸ (List.append_nil accepted).symm ▸ h.writeNext
  | writeFailed reason => exact (h.writeFailed reason).still
  | stopWriting => exact h.stopWriting.still
  | receive bytes => exact (h.rest (rests_receive s bytes) hclosed).still
  | peerClosed => exact (h.rest (rests_peerClosed s) hclosed).still
  | readFailed reason => exact (h.rest (rests_teardown s _) hclosed).still
  | expire requestId generation => exact (h.rest (rests_settle s _ _ _) hclosed).still
  | close => exact (h.rest (rests_close s) hclosed).still
  | drop => exact (h.rest (rests_teardown s _) hclosed).still

omit h in
/-- Every run keeps the line, in turn if its calls follow each other. -/
theorem run (h : Lined turn s accepted handed sent) {events : List SessionEvent}
    (hturn : turn → s.InTurn events) :
    Lined turn (s.run events).1 (accepted ++ s.along acceptedBy events)
      (handed ++ s.along handedBy events) (sent ++ s.along sentBy events) := by
  induction events generalizing s accepted handed sent with
  | nil => exact h.still
  | cons e rest ih =>
    have hrest := ih (h.step e fun ht => (hturn ht).1) fun ht => (hturn ht).2
    rw [List.append_assoc, List.append_assoc, List.append_assoc] at hrest
    exact hrest

end Lined

end Session

end RemoteCall
