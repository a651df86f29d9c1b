import RemoteCall.Proofs.Client.Closing

/-!
# A session closes once

The first event that has a cause to close a session closes it for good. Nothing that happens later
changes the table, the reason or who has been told: a call is refused with the stored reason, a
response finds no slot, and closing again is refused. So in a run the word that the session has
closed goes out once.
-/

namespace RemoteCall

namespace Session

variable {s : Session}

/-- The calls that an event makes to a closed session, each with the failure that it meets at
once. -/
def refusals (s : Session) : SessionEvent → List (Nat × CallOutcome)
  | .call caller r | .enter caller r =>
    match s.prepare r with
    | .error e => [(caller, .error e)]
    | .ok _ => []
  | _ => []

/-- A session that has closed for a reason, and whose table is empty. -/
structure Shut (s : Session) (reason : String) : Prop where
  reason : s.closeReason = some reason
  slots : s.slots = []

variable {reason : String}

/-- A session that has a reason to be closed is closed. -/
theorem Shut.isClosed (h : Shut s reason) : s.isClosed = true := congrArg Option.isSome h.reason

/-- No call of a closed session waits under an id. -/
theorem Shut.slot?_eq (h : Shut s reason) (id : UInt64) : s.slot? id = none := by
  rw [slot?, h.slots, List.find?_nil]

/-- In a closed session no call is left to end. -/
theorem Shut.settle_eq (h : Shut s reason) (id : UInt64) (generation : Nat)
    (outcome : CallOutcome) : s.settle id generation outcome = (s, []) := by
  rw [settle, h.slot?_eq]

/-- A closed session refuses every call: one whose request can be sent with the reason for which it
has closed. -/
theorem Shut.prepare_eq (h : Shut s reason) {r : Request} {body : List UInt8}
    (hbody : s.codec.encodeRequest r = .ok body) (hlength : body.length ≤ s.settings.maxFrameSize) :
    s.prepare r = .error (.connectionClosed reason) := by
  rw [prepare, hbody]
  dsimp only
  rw [if_neg (Nat.not_lt.mpr hlength), h.reason]

/-- A closed session refuses every request for some reason. -/
theorem Shut.exists_prepare_eq (h : Shut s reason) (r : Request) :
    ∃ e, s.prepare r = .error e := by
  cases hbody : s.codec.encodeRequest r with
  | error e => exact ⟨_, by rw [prepare, hbody]⟩
  | ok body =>
    by_cases hlength : s.settings.maxFrameSize < body.length
    · exact ⟨_, by rw [prepare, hbody]; exact if_pos hlength⟩
    · exact ⟨_, h.prepare_eq hbody (Nat.not_lt.mp hlength)⟩

/-- A call to a closed session fails at once and takes no slot. -/
theorem Shut.enter_eq (h : Shut s reason) (caller : Nat) (r : Request) :
    ∃ e, s.enter caller r = (s, [.resolve caller (.error e)]) ∧
      s.refusals (.enter caller r) = [(caller, .error e)] := by
  obtain ⟨e, he⟩ := h.exists_prepare_eq r
  exact ⟨e, by rw [enter, he], by rw [refusals, he]⟩

/-- What a step of a closed session leaves as it is, and whom it resolves. -/
structure Idles (s : Session) (e : SessionEvent) (out : Session × List SessionEffect) : Prop where
  keeps : Keeps s out
  slots : out.1.slots = []
  generation : out.1.lastGeneration = s.lastGeneration
  resolved : resolutions out.2 = s.refusals e

/-- A step that does nothing. -/
theorem Shut.idles_self (h : Shut s reason) {e : SessionEvent} (he : s.refusals e = []) :
    Idles s e (s, []) :=
  ⟨keeps_self s, h.slots, rfl, he.symm⟩

/-- Handing over a request does nothing to the calls of a closed session. -/
theorem Shut.idles_queue (h : Shut s reason) (generation : Nat) :
    Idles s (.queue generation) (s.queue generation) := by
  unfold queue
  split
  · exact h.idles_self rfl
  · dsimp only
    have hrest :
        Shut { s with unqueued := s.unqueued.filter (·.generation != generation) } reason :=
      ⟨h.reason, h.slots⟩
    split
    · exact ⟨⟨rfl, rfl, rfl, rfl⟩, h.slots, rfl, rfl⟩
    · rw [hrest.settle_eq]
      exact ⟨⟨rfl, rfl, rfl, rfl⟩, h.slots, rfl, rfl⟩

/-- A call to a closed session is refused, and its request is not handed over. -/
theorem Shut.idles_call (h : Shut s reason) (caller : Nat) (r : Request) :
    Idles s (.call caller r) (s.call caller r) := by
  obtain ⟨e, henter, hrefusals⟩ := h.enter_eq caller r
  have hqueue := h.idles_queue (s.lastGeneration + 1)
  have hcall : s.call caller r = ((s.queue (s.lastGeneration + 1)).1,
      [.resolve caller (.error e)] ++ (s.queue (s.lastGeneration + 1)).2) := by
    rw [call, henter]
  have htold : closings [.resolve caller (.error e)] = 0 := rfl
  rw [hcall]
  constructor
  case keeps =>
    refine ⟨hqueue.keeps.reason, hqueue.keeps.codec, hqueue.keeps.settings, ?_⟩
    rw [closings_append, htold, hqueue.keeps.untold]
  case slots => exact hqueue.slots
  case generation => exact hqueue.generation
  case resolved =>
    rw [resolutions_append, hqueue.resolved]
    exact hrefusals.symm

/-- A closed session stays as it is in every step, but for the requests that are still written. -/
theorem Shut.idles (h : Shut s reason) (e : SessionEvent) : Idles s e (s.step e) := by
  have hclosed := h.isClosed
  cases e with
  | call caller r => exact h.idles_call caller r
  | enter caller r =>
    obtain ⟨e, henter, hrefusals⟩ := h.enter_eq caller r
    rw [step, henter]
    exact ⟨⟨rfl, rfl, rfl, rfl⟩, h.slots, rfl, hrefusals.symm⟩
  | queue generation => exact h.idles_queue generation
  | writeNext =>
    rw [step, writeNext]
    split
    · exact ⟨⟨rfl, rfl, rfl, rfl⟩, h.slots, rfl, rfl⟩
    · exact h.idles_self rfl
  | writeFailed reason =>
    rw [step, writeFailed]
    split
    · dsimp only
      rw [h.settle_eq]
      dsimp only
      rw [teardown_of_closed hclosed]
      exact ⟨⟨rfl, rfl, rfl, rfl⟩, h.slots, rfl, rfl⟩
    · exact h.idles_self rfl
  | stopWriting =>
    rw [step, stopWriting, if_pos hclosed]
    exact ⟨⟨rfl, rfl, rfl, rfl⟩, h.slots, rfl, rfl⟩
  | receive bytes =>
    rw [step, receive, if_pos hclosed]
    exact h.idles_self rfl
  | peerClosed =>
    have hnothing : s.peerClosed = (s, []) := by
      unfold peerClosed
      split
      · exact teardown_of_closed hclosed _
      · exact teardown_of_closed hclosed _
    rw [step, hnothing]
    exact h.idles_self rfl
  | readFailed reason =>
    rw [step, readFailed, teardown_of_closed hclosed]
    exact h.idles_self rfl
  | expire requestId generation =>
    rw [step, expire, h.settle_eq]
    exact h.idles_self rfl
  | close =>
    rw [step, close, if_pos hclosed]
    exact h.idles_self rfl
  | drop =>
    rw [step, drop, teardown_of_closed hclosed]
    exact h.idles_self rfl

/-- What a session refuses depends on its settings and on why it has closed. -/
theorem Keeps.refusals_eq {out : Session × List SessionEffect} (h : Keeps s out) :
    out.1.refusals = s.refusals := by
  funext e
  have hprepare : out.1.prepare = s.prepare := by
    funext r
    rw [prepare, prepare, h.codec, h.settings, h.reason]
  cases e with
  | call caller r => rw [refusals, refusals, hprepare]
  | enter caller r => rw [refusals, refusals, hprepare]
  | _ => rfl

/-- A closed session stays closed for the same reason. -/
theorem Idles.shut (h : Shut s reason) {e : SessionEvent} {out : Session × List SessionEffect}
    (hout : Idles s e out) : Shut out.1 reason :=
  ⟨hout.keeps.reason.trans h.reason, hout.slots⟩

/-- In a run of a closed session the calls are refused, each when it is made, and nothing else
happens to any call. -/
theorem Shut.run (h : Shut s reason) (events : List SessionEvent) :
    Shut (s.run events).1 reason ∧ Keeps s (s.run events) ∧
      (s.run events).1.lastGeneration = s.lastGeneration ∧
      resolutions (s.run events).2 = events.flatMap s.refusals := by
  induction events generalizing s with
  | nil => exact ⟨h, keeps_self s, rfl, rfl⟩
  | cons e rest ih =>
    have hstep := h.idles e
    obtain ⟨hshut, hkeeps, hgeneration, hresolved⟩ := ih (hstep.shut h)
    refine ⟨hshut, hstep.keeps.trans hkeeps, hgeneration.trans hstep.generation, ?_⟩
    rw [Session.run, List.flatMap_cons]
    dsimp only
    rw [resolutions_append, hstep.resolved, hresolved, hstep.keeps.refusals_eq]

/-- Two stretches of a run. -/
theorem run_append (events more : List SessionEvent) :
    s.run (events ++ more) =
      (((s.run events).1.run more).1, (s.run events).2 ++ ((s.run events).1.run more).2) := by
  induction events generalizing s with
  | nil => rfl
  | cons e rest ih =>
    rw [List.cons_append, run, run]
    dsimp only
    rw [ih, List.append_assoc]

/-- A run that ends in an open session has told nobody of a close. -/
theorem closings_of_open {events : List SessionEvent} (hopen : s.isClosed = false)
    (hend : (s.run events).1.isClosed = false) : closings (s.run events).2 = 0 := by
  induction events generalizing s with
  | nil => rfl
  | cons e rest ih =>
    cases hcause : s.closeCause? e with
    | none =>
      have hkeeps := keeps_of_no_cause hopen hcause
      have hrest := ih (hkeeps.isClosed_eq.trans hopen) hend
      rw [run]
      dsimp only
      rw [closings_append, hkeeps.untold, hrest]
    | some cause =>
      have hcloses := closes_of_cause hopen hcause
      have hshut : Shut (s.step e).1 (reasonOf cause) := ⟨hcloses.reason, hcloses.slots⟩
      have hclosed := (hshut.run rest).1.isClosed
      exact Bool.noConfusion (hclosed.symm.trans hend)

/-- A run that closes an open session has an event that does. -/
theorem exists_closing {events : List SessionEvent} (hopen : s.isClosed = false)
    (hend : (s.run events).1.isClosed = true) :
    ∃ before e after cause, events = before ++ e :: after ∧ (s.run before).1.isClosed = false ∧
      (s.run before).1.closeCause? e = some cause := by
  induction events generalizing s with
  | nil => exact absurd hend (Bool.eq_false_iff.mp hopen)
  | cons e rest ih =>
    cases hcause : s.closeCause? e with
    | some cause => exact ⟨[], e, rest, cause, rfl, hopen, hcause⟩
    | none =>
      have hopen' := (keeps_of_no_cause hopen hcause).isClosed_eq.trans hopen
      obtain ⟨before, e', after, cause, rfl, hbefore, hcause'⟩ := ih hopen' hend
      exact ⟨e :: before, e', after, cause, rfl, hbefore, hcause'⟩

/-- What holds of an open session that an event closes for a cause, and of all that comes after. -/
structure TornDown (s : Session) (e : SessionEvent) (cause : CallError)
    (after : List SessionEvent) : Prop where
  /-- Until then the session is open, in the step that closes it too. -/
  until_closing : (s.untilClosing e).1.isClosed = false
  /-- In that step every call that still waits fails, and the word goes out. -/
  failed : (s.step e).2 = (s.untilClosing e).2 ++
    ((s.untilClosing e).1.slots.map (fun slot => .resolve slot.caller (.error cause.forPending)) ++
      [.closed])
  /-- A cause that breaks the protocol fails those calls with an error of the protocol, any other
  with the end of the connection. -/
  kind : (cause.isProtocol = true ∧ ∃ text, cause.forPending = .protocol text) ∨
    (cause.isProtocol = false ∧ ∃ text, cause.forPending = .connectionClosed text)
  /-- The word goes out in that step and in no other. -/
  once : closings (s.step e).2 = 1 ∧ closings ((s.step e).1.run after).2 = 0
  /-- The table is empty from then on. -/
  emptied : (s.step e).1.slots = [] ∧ ((s.step e).1.run after).1.slots = []
  /-- No later call takes a slot. -/
  untaken : ((s.step e).1.run after).1.lastGeneration = (s.step e).1.lastGeneration
  /-- The reason stays. -/
  reason : (s.step e).1.closeReason = some (reasonOf cause) ∧
    ((s.step e).1.run after).1.closeReason = some (reasonOf cause)
  /-- Later calls are refused, each when it is made, and nothing else happens to any call. -/
  refused : resolutions ((s.step e).1.run after).2 = after.flatMap (s.step e).1.refusals
  /-- A later call whose request encodes and keeps to the limit on frames is refused with the
  reason. -/
  later : ∀ caller r body, s.codec.encodeRequest r = .ok body →
    body.length ≤ s.settings.maxFrameSize →
    ((s.step e).1.run after).1.enter caller r = (((s.step e).1.run after).1,
      [.resolve caller (.error (.connectionClosed (reasonOf cause)))])
  /-- No later response is delivered. -/
  undelivered : answers ((s.step e).1.run after).2 = []
  /-- The session cannot be closed again, for whatever cause. -/
  already : ((s.step e).1.run after).1.close =
      (.error (.alreadyClosed .session), ((s.step e).1.run after).1, []) ∧
    ∀ cause', ((s.step e).1.run after).1.teardown cause' = (((s.step e).1.run after).1, [])

/-- Refusals are no responses. -/
theorem answers_of_refusals {effects : List SessionEffect} {events : List SessionEvent}
    (h : resolutions effects = events.flatMap s.refusals) : answers effects = [] := by
  rw [answers, h, List.filterMap_eq_nil_iff]
  intro entry hentry
  obtain ⟨e, -, he⟩ := List.mem_flatMap.mp hentry
  have hrefused : ∀ caller r, entry ∈ s.refusals (.enter caller r) →
      entry.2.toOption = none := by
    intro caller r hmem
    rw [refusals] at hmem
    split at hmem
    · rw [List.mem_singleton.mp hmem]
      rfl
    · exact absurd hmem List.not_mem_nil
  cases e with
  | call caller r => exact hrefused caller r he
  | enter caller r => exact hrefused caller r he
  | _ => exact absurd he List.not_mem_nil

/-- An event that closes an open session tears it down for good. -/
theorem Closes.tornDown (hopen : s.isClosed = false) {e : SessionEvent} {cause : CallError}
    (h : Closes s e cause) (after : List SessionEvent) : TornDown s e cause after := by
  have hshut : Shut (s.step e).1 (reasonOf cause) := ⟨h.reason, h.slots⟩
  obtain ⟨hend, hkeeps, hgeneration, hresolved⟩ := hshut.run after
  constructor
  case until_closing => exact h.until_closing.isClosed_eq.trans hopen
  case failed => exact h.effects
  case kind => exact cause.forPending_cases
  case once =>
    refine ⟨?_, hkeeps.untold⟩
    rw [h.effects, closings_append, h.until_closing.untold, closings_lastWords]
  case emptied => exact ⟨h.slots, hend.slots⟩
  case untaken => exact hgeneration
  case reason => exact ⟨h.reason, hend.reason⟩
  case refused => exact hresolved
  case later =>
    intro caller r body hbody hlength
    rw [enter, hend.prepare_eq (hkeeps.codec.trans h.codec ▸ hbody)
      (hkeeps.settings.trans h.settings ▸ hlength)]
  case undelivered => exact answers_of_refusals hresolved
  case already =>
    refine ⟨?_, teardown_of_closed hend.isClosed⟩
    rw [close, if_pos hend.isClosed]

/-- What holds of the closing of a session in a run from its start. -/
structure ClosesOnce (s : Session) (events : List SessionEvent) : Prop where
  /-- Whoever asked for the session is told once if it has closed, and not at all if it is open. -/
  told : closings (s.run events).2 = if (s.run events).1.isClosed then 1 else 0
  /-- A session that has closed was open up to an event that had a cause to close it. -/
  first : (s.run events).1.isClosed = true → ∃ before e after cause,
    events = before ++ e :: after ∧ (s.run before).1.isClosed = false ∧
      (s.run before).1.closeCause? e = some cause
  /-- At whatever point an event has a cause to close the open session, it does, for good. -/
  tornDown : ∀ before e after cause, events = before ++ e :: after →
    (s.run before).1.isClosed = false → (s.run before).1.closeCause? e = some cause →
    TornDown (s.run before).1 e cause after

/-- **A session closes once.** In every run of a session, the first event that has a cause to close
it empties the table, fails every call that waits, stores the reason and sends the word, and nothing
that comes after changes any of this. -/
theorem run_closesOnce (settings : ClientSettings) (codec : CodecSettings)
    (events : List SessionEvent) : ClosesOnce (start settings codec) events := by
  have hopen : (start settings codec).isClosed = false := rfl
  generalize start settings codec = s at hopen
  have htornDown : ∀ before e after cause, events = before ++ e :: after →
      (s.run before).1.isClosed = false → (s.run before).1.closeCause? e = some cause →
      TornDown (s.run before).1 e cause after :=
    fun before e after cause _ hbefore hcause =>
      (closes_of_cause hbefore hcause).tornDown hbefore after
  constructor
  case told =>
    cases hend : (s.run events).1.isClosed with
    | false => exact closings_of_open hopen hend
    | true =>
      obtain ⟨before, e, after, cause, hsplit, hbefore, hcause⟩ := exists_closing hopen hend
      have honce := (htornDown before e after cause hsplit hbefore hcause).once
      rw [hsplit, run_append]
      dsimp only
      rw [run]
      dsimp only
      rw [closings_append, closings_append, closings_of_open hopen hbefore, honce.1, honce.2]
      rfl
  case first => exact exists_closing hopen
  case tornDown => exact htornDown

end Session

end RemoteCall
