import RemoteCall.Proofs.Client.Accounts

/-!
# Calls are resolved exactly once

Every step of a session keeps its accounts, whatever comes in between: calls under any ids, calls
that have taken their slots and not handed over their requests, responses, timers, failed writes,
a lost peer, bad frames. So a run keeps them too. From the start of a session on, each call waits
in the table under a generation of its own, or it has been resolved once and waits no more.
-/

namespace RemoteCall

/-- The calls that an event makes. -/
def SessionEvent.made : SessionEvent → List MadeCall
  | call caller r => [(caller, r.id)]
  | enter caller r => [(caller, r.id)]
  | _ => []

namespace Session

/-- The slot that a call takes, unless it fails at once. -/
def slotFor (s : Session) (caller : Nat) (r : Request) : List Slot :=
  match s.prepare r with
  | .ok _ => [⟨r.id, s.lastGeneration + 1, caller⟩]
  | .error _ => []

/-- The slots that an event takes. -/
def takenBy (s : Session) : SessionEvent → List Slot
  | .call caller r => s.slotFor caller r
  | .enter caller r => s.slotFor caller r
  | _ => []

/-- The responses that frames spell. -/
def responsesIn (codec : CodecSettings) (bodies : List (List UInt8)) : List Response :=
  bodies.flatMap fun body => (codec.decodeResponse body).toOption.toList

/-- The responses that an event brings. -/
def receivedBy (s : Session) : SessionEvent → List Response
  | .receive bytes =>
    if s.isClosed then [] else responsesIn s.codec (s.reader.feed bytes).drain.1
  | _ => []

/-- What is noted at the events of a run, in order. -/
def along {α : Type} (note : Session → SessionEvent → List α) (s : Session) :
    List SessionEvent → List α
  | [] => []
  | e :: rest => note s e ++ (s.step e).1.along note rest

section Steps

variable {s : Session} (h : s.Distinct)

include h

/-- Ending a call by its generation keeps the accounts. -/
theorem accounts_settle (id : UInt64) (generation : Nat) (e : CallError) :
    Accounts s (s.settle id generation (.error e)).1 [] [] []
      (s.settle id generation (.error e)).2 := by
  unfold settle
  split
  · rename_i slot hslot
    split
    · exact .fail h hslot e
    · exact .quiet h rfl rfl rfl
  · exact .quiet h rfl rfl rfl

/-- Taking a slot keeps the accounts. -/
theorem accounts_enter (caller : Nat) (r : Request) :
    Accounts s (s.enter caller r).1 [(caller, r.id)] (s.slotFor caller r) []
      (s.enter caller r).2 := by
  unfold enter slotFor
  cases s.prepare r with
  | error e => exact .refuse h caller r.id e
  | ok body =>
    dsimp only
    cases hslot : s.slot? r.id with
    | none =>
      have hid : ∀ slot ∈ s.slots, slot.requestId ≠ r.id := by
        intro slot hmem
        rw [← removeSlot_of_none hslot] at hmem
        exact requestId_ne_of_mem_removeSlot hmem
      rw [removeSlot_of_none hslot]
      exact .take h hid caller rfl rfl
    | some stale =>
      have hfail := Accounts.fail h hslot (.duplicateRequestId r.id)
      exact hfail.trans (.take hfail.distinct
        (fun slot hmem => requestId_ne_of_mem_removeSlot hmem) caller rfl rfl)

/-- Handing over a request keeps the accounts. -/
theorem accounts_queue (generation : Nat) :
    Accounts s (s.queue generation).1 [] [] [] (s.queue generation).2 := by
  unfold queue
  split
  · exact .quiet h rfl rfl rfl
  · dsimp only
    split
    · exact .quiet h rfl rfl rfl
    · have hrest : Accounts s
          { s with unqueued := s.unqueued.filter (·.generation != generation) } [] [] [] [] :=
        .quiet h rfl rfl rfl
      exact hrest.trans (accounts_settle hrest.distinct _ _ _)

/-- A call keeps the accounts. -/
theorem accounts_call (caller : Nat) (r : Request) :
    Accounts s (s.call caller r).1 [(caller, r.id)] (s.slotFor caller r) []
      (s.call caller r).2 := by
  have henter := accounts_enter h caller r
  have hboth := henter.trans (accounts_queue henter.distinct (s.lastGeneration + 1))
  rwa [List.append_nil, List.append_nil, List.append_nil] at hboth

/-- Closing keeps the accounts. -/
theorem accounts_teardown (cause : CallError) :
    Accounts s (s.teardown cause).1 [] [] [] (s.teardown cause).2 := by
  unfold teardown
  split
  · exact .quiet h rfl rfl rfl
  · exact .clear h cause.forPending rfl rfl

/-- Writing keeps the accounts. -/
theorem accounts_writeNext : Accounts s s.writeNext.1 [] [] [] s.writeNext.2 := by
  unfold writeNext
  split
  · exact .quiet h rfl rfl rfl
  · exact .quiet h rfl rfl rfl

/-- A failed write keeps the accounts. -/
theorem accounts_writeFailed (reason : String) :
    Accounts s (s.writeFailed reason).1 [] [] [] (s.writeFailed reason).2 := by
  unfold writeFailed
  split
  · rename_i next _ _ _
    have hsettle := accounts_settle h next.requestId next.generation
      (.transport (CallError.io reason).message)
    exact (hsettle.trans (accounts_teardown hsettle.distinct _)).andQuiet rfl rfl
  · exact .quiet h rfl rfl rfl

/-- The end of writing keeps the accounts. -/
theorem accounts_stopWriting : Accounts s s.stopWriting [] [] [] [] := by
  unfold stopWriting
  split
  · exact .quiet h rfl rfl rfl
  · exact .quiet h rfl rfl rfl

/-- A response keeps the accounts. -/
theorem accounts_deliver (r : Response) :
    Accounts s (s.deliver r).1 [] [] [r] (s.deliver r).2 := by
  unfold deliver
  split
  · rename_i slot hslot
    refine .release h hslot (.ok r) fun r' hr' => ?_
    cases hr'
    rfl
  · exact (Accounts.quiet h rfl rfl rfl).mono (List.nil_sublist _)

/-- A frame keeps the accounts. -/
theorem accounts_acceptBody (body : List UInt8) :
    Accounts s (s.acceptBody body).1 [] [] (responsesIn s.codec [body])
      (s.acceptBody body).2 := by
  unfold acceptBody responsesIn
  rw [List.flatMap_singleton]
  split
  · exact (Accounts.quiet h rfl rfl rfl).mono (List.nil_sublist _)
  · cases s.codec.decodeResponse body with
    | ok r => exact accounts_deliver h r
    | error e => exact accounts_teardown h _

omit h in
/-- A frame leaves the codec alone. -/
theorem codec_acceptBody (body : List UInt8) : (s.acceptBody body).1.codec = s.codec := by
  unfold acceptBody deliver teardown
  split
  · rfl
  · split
    · split
      · rfl
      · rfl
    · rfl

/-- Frames keep the accounts. -/
theorem accounts_acceptBodies (bodies : List (List UInt8)) :
    Accounts s (s.acceptBodies bodies).1 [] [] (responsesIn s.codec bodies)
      (s.acceptBodies bodies).2 := by
  induction bodies generalizing s with
  | nil => exact .quiet h rfl rfl rfl
  | cons body rest ih =>
    have hbody := accounts_acceptBody h body
    have hboth := hbody.trans (ih hbody.distinct)
    have hcons : responsesIn s.codec (body :: rest) =
        responsesIn s.codec [body] ++ responsesIn s.codec rest := by
      simp only [responsesIn, List.flatMap_cons, List.flatMap_nil, List.append_nil]
    rw [codec_acceptBody, ← hcons] at hboth
    exact hboth

/-- Bytes keep the accounts. -/
theorem accounts_receive (bytes : List UInt8) :
    Accounts s (s.receive bytes).1 [] [] (s.receivedBy (.receive bytes))
      (s.receive bytes).2 := by
  unfold receive receivedBy
  split
  · exact .quiet h rfl rfl rfl
  · dsimp only
    have hread : Accounts s { s with reader := (s.reader.feed bytes).drain.2.2 } [] [] [] [] :=
      .quiet h rfl rfl rfl
    have hbodies := accounts_acceptBodies hread.distinct (s.reader.feed bytes).drain.1
    cases (s.reader.feed bytes).drain.2.1 with
    | none => exact hread.trans hbodies
    | some e =>
      have hclosed := hbodies.trans (accounts_teardown hbodies.distinct e)
      simp only [List.append_nil] at hclosed
      exact hread.trans hclosed

/-- The end of the stream keeps the accounts. -/
theorem accounts_peerClosed : Accounts s s.peerClosed.1 [] [] [] s.peerClosed.2 := by
  unfold peerClosed
  split
  · exact accounts_teardown h _
  · exact accounts_teardown h _

/-- Closing on demand keeps the accounts. -/
theorem accounts_close : Accounts s s.close.2.1 [] [] [] s.close.2.2 := by
  unfold close
  split
  · exact .quiet h rfl rfl rfl
  · exact accounts_teardown h _

/-- Every step keeps the accounts. -/
theorem accounts_step (e : SessionEvent) :
    Accounts s (s.step e).1 e.made (s.takenBy e) (s.receivedBy e) (s.step e).2 := by
  cases e with
  | call caller r => exact accounts_call h caller r
  | enter caller r => exact accounts_enter h caller r
  | queue generation => exact accounts_queue h generation
  | writeNext => exact accounts_writeNext h
  | writeFailed reason => exact accounts_writeFailed h reason
  | stopWriting => exact accounts_stopWriting h
  | receive bytes => exact accounts_receive h bytes
  | peerClosed => exact accounts_peerClosed h
  | readFailed reason => exact accounts_teardown h _
  | expire requestId generation => exact accounts_settle h requestId generation _
  | close => exact accounts_close h
  | drop => exact accounts_teardown h _

/-- Every run keeps the accounts. -/
theorem accounts_run (events : List SessionEvent) :
    Accounts s (s.run events).1 (events.flatMap SessionEvent.made) (s.along takenBy events)
      (s.along receivedBy events) (s.run events).2 := by
  induction events generalizing s with
  | nil => exact .quiet h rfl rfl rfl
  | cons e rest ih =>
    have hstep := accounts_step h e
    exact hstep.trans (ih hstep.distinct)

end Steps

/-- A response under whose id no call waits leaves the session as it is. -/
theorem acceptBody_unmatched {s : Session} {body : List UInt8} {r : Response}
    (hopen : s.isClosed = false) (hr : s.codec.decodeResponse body = .ok r)
    (hid : ∀ slot ∈ s.slots, slot.requestId ≠ r.id) : s.acceptBody body = (s, []) := by
  have hnone : s.slot? r.id = none := by
    refine List.find?_eq_none.mpr fun slot hslot hbeq => ?_
    exact hid slot hslot (beq_iff_eq.mp hbeq)
  rw [acceptBody, hopen, if_neg Bool.false_ne_true, hr]
  dsimp only
  rw [deliver, hnone]

/-- So do any number of such responses. -/
theorem acceptBodies_unmatched {s : Session} {bodies : List (List UInt8)}
    (hopen : s.isClosed = false)
    (hid : ∀ body ∈ bodies, ∃ r, s.codec.decodeResponse body = .ok r ∧
      ∀ slot ∈ s.slots, slot.requestId ≠ r.id) : s.acceptBodies bodies = (s, []) := by
  induction bodies with
  | nil => rfl
  | cons body rest ih =>
    obtain ⟨r, hr, hslots⟩ := hid body List.mem_cons_self
    have hrest := ih fun body' hbody' => hid body' (List.mem_cons_of_mem _ hbody')
    rw [acceptBodies, acceptBody_unmatched hopen hr hslots]
    dsimp only
    rw [hrest]
    rfl

/-- Bytes that bring only such responses leave all but the reader as it is. -/
theorem receive_unmatched {s : Session} {bytes : List UInt8} {bodies : List (List UInt8)}
    {reader : FrameReader} (hopen : s.isClosed = false)
    (hframes : (s.reader.feed bytes).drain = (bodies, none, reader))
    (hid : ∀ body ∈ bodies, ∃ r, s.codec.decodeResponse body = .ok r ∧
      ∀ slot ∈ s.slots, slot.requestId ≠ r.id) :
    s.receive bytes = ({ s with reader }, []) := by
  have hbodies : Session.acceptBodies { s with reader } bodies = ({ s with reader }, []) :=
    acceptBodies_unmatched hopen hid
  rw [receive, hopen, if_neg Bool.false_ne_true, hframes]
  dsimp only
  rw [hbodies]

/-- What holds of the calls of a session after a run from its start: the calls that the run made,
the slots that they took, the responses that arrived and what was done outside. -/
structure ExactlyOnce (s : Session) (calls : List MadeCall) (taken : List Slot)
    (received : List Response) (effects : List SessionEffect) : Prop where
  /-- Every call waits in the table or has been resolved, and none does so twice. -/
  conserved : (calls.map (·.1)).Perm (s.slots.map (·.caller) ++ resolved effects)
  /-- Where every call has a caller of its own, each either has a slot and is unresolved, or has no
  slot and is resolved once. -/
  exclusive : (calls.map (·.1)).Nodup → ∀ caller ∈ calls.map (·.1),
    ((∃ slot ∈ s.slots, slot.caller = caller) ∧ caller ∉ resolved effects) ∨
      ((∀ slot ∈ s.slots, slot.caller ≠ caller) ∧ (resolved effects).count caller = 1)
  /-- Every slot was taken by a call of its own, under the id of its request. -/
  own : (taken.map Slot.made).Sublist calls
  /-- Every slot was taken under a generation of its own. -/
  generations : taken.Pairwise (·.generation < ·.generation)
  /-- The table has slots that were taken, in the order in which they were. -/
  kept : s.slots.Sublist taken
  /-- No two slots of the table have one request id. -/
  distinct : s.Distinct
  /-- A slot that has left the table has had its caller resolved. -/
  released : ∀ slot ∈ taken, slot ∉ s.slots → slot.caller ∈ resolved effects
  /-- The pending calls are the unresolved ones. -/
  pending : s.pendingCount + (resolved effects).length = calls.length
  /-- A call that a response resolved had taken a slot under the request id of that response. -/
  answered : ∀ caller r, (caller, .ok r) ∈ resolutions effects →
    ∃ slot ∈ taken, slot.caller = caller ∧ slot.requestId = r.id
  /-- The responses that resolved calls are among those that arrived, one call for each. -/
  arrived : (answers effects).Sublist received
  /-- At whatever point of a run a response without a slot is handled, the session stays as it is,
  and open. -/
  unmatched : ∀ (point : Session) body r, point.isClosed = false →
    point.codec.decodeResponse body = .ok r → (∀ slot ∈ point.slots, slot.requestId ≠ r.id) →
    point.acceptBody body = (point, [])
  /-- Bytes that bring only such responses change nothing but how far the stream has been read. -/
  dropped : ∀ bytes bodies reader, s.isClosed = false →
    (s.reader.feed bytes).drain = (bodies, none, reader) →
    (∀ body ∈ bodies, ∃ r, s.codec.decodeResponse body = .ok r ∧
      ∀ slot ∈ s.slots, slot.requestId ≠ r.id) →
    s.receive bytes = ({ s with reader }, [])

/-- In every run of a session each call waits in its slot or has been resolved exactly once. -/
theorem run_exactlyOnce (settings : ClientSettings) (codec : CodecSettings)
    (events : List SessionEvent) :
    ExactlyOnce ((start settings codec).run events).1 (events.flatMap SessionEvent.made)
      ((start settings codec).along takenBy events)
      ((start settings codec).along receivedBy events)
      ((start settings codec).run events).2 := by
  have hstart : (start settings codec).Distinct := List.nodup_nil
  have h := accounts_run hstart events
  have hconserved : ((events.flatMap SessionEvent.made).map (·.1)).Perm
    (((start settings codec).run events).1.slots.map (·.caller) ++
      resolved ((start settings codec).run events).2) := h.conserved
  constructor
  case conserved => exact hconserved
  case exclusive =>
    intro hnodup caller hcaller
    have hcount := hconserved.count_eq caller
    rw [hnodup.count, if_pos hcaller, List.count_append] at hcount
    by_cases hslot : caller ∈ ((start settings codec).run events).1.slots.map (·.caller)
    · have hpos := List.count_pos_iff.mpr hslot
      refine .inl ⟨List.mem_map.mp hslot, fun hresolved => ?_⟩
      have hpos' := List.count_pos_iff.mpr hresolved
      omega
    · have hzero := List.count_eq_zero.mpr hslot
      refine .inr ⟨fun slot hmem he => hslot (List.mem_map.mpr ⟨slot, hmem, he⟩), ?_⟩
      omega
  case own => exact h.own
  case generations => exact h.ordered
  case kept => exact h.kept
  case distinct => exact h.distinct
  case released => exact h.released
  case pending =>
    have hlength := hconserved.length_eq
    rw [List.length_append, List.length_map, List.length_map] at hlength
    exact hlength.symm
  case answered => exact h.answered
  case arrived => exact h.arrived
  case unmatched => exact fun point body r => acceptBody_unmatched
  case dropped => exact fun bytes bodies reader => receive_unmatched

/-- A request without parameters. -/
def ping : Request := ⟨7, 0, "Store", "ping", ⟨⟨.void, false⟩, []⟩, []⟩

/-- Of two calls under one id the earlier fails and the response ends the later; the timer of the
earlier one ends nothing. -/
example : resolved ((start .standard .standard).run
    [.call 1 ping, .call 2 ping, .expire 7 1, .receive (Frame.wrap [28, 7, 0, 0, 0, 0])]).2 =
      [1, 2] := by
  decide +kernel

end Session

end RemoteCall
