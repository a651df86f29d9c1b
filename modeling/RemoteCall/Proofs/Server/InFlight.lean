import RemoteCall.Proofs.Keyed
import RemoteCall.Server.Connection

/-!
# Requests in flight

The books that a connection keeps on its requests while it is open. The ids in flight are those of
the running invocations, each once, and the activity of the connection counts them. Every request
that was received is running or has had one response under its id. Each step keeps these books: a
refusal answers its request and changes nothing else, an admitted request runs, and an invocation
that ends is answered and runs no more.
-/

namespace RemoteCall

variable {m : Type → Type}

/-- The response that an effect writes. -/
def ConnectionEffect.response? : ConnectionEffect m → Option Response
  | write response _ => some response
  | _ => none

/-- The responses that effects write, in order. -/
def responses (effects : List (ConnectionEffect m)) : List Response :=
  effects.filterMap ConnectionEffect.response?

/-- What is done later responds later. -/
theorem responses_append (effects more : List (ConnectionEffect m)) :
    responses (effects ++ more) = responses effects ++ responses more :=
  List.filterMap_append

/-- The response that is sent has the id of the response that was to be sent. -/
theorem Dispatcher.reply_id (d : Dispatcher m) (timestamp : Int64) (r : Response) :
    (d.reply timestamp r).1.id = r.id := by
  unfold reply
  split
  · split
    · rfl
    · rfl
  · rfl

/-- The report on an invocation has the id of its request. -/
theorem Request.report_id (r : Request) (timestamp : Int64) (outcome : Outcome) :
    (r.report timestamp outcome).id = r.id := by
  cases outcome with
  | returned v =>
    unfold report
    dsimp only
    split
    · rfl
    · rfl
  | failed e => rfl
  | panicked text => rfl

namespace Connection

variable {d : Dispatcher m} {now : Moment} {c c' : Connection}

/-- A response after which the connection is open has been written, and only the time of the last
response has changed. -/
theorem respond_of_open {r : Response} (hopen : (c.respond d now r).1.ending = none) :
    (c.respond d now r).1 = { c with activity := c.activity.touch now } ∧
      responses (c.respond d now r).2 = [(d.reply now.timestamp r).1] := by
  unfold respond write at hopen ⊢
  dsimp only at hopen ⊢
  cases hframe : Frame.encode d.maxFrameSize (d.reply now.timestamp r).2 with
  | error e =>
    rw [hframe] at hopen
    cases hopen
  | ok bytes => exact ⟨rfl, rfl⟩

/-- The books of an open connection on the requests received and the responses written so far. -/
structure Accounted (c : Connection) (received : List Request) (written : List Response) :
    Prop where
  /-- The ids in flight are those of the running invocations. -/
  ids : c.inFlight = c.running.map (·.request.id)
  /-- No id is in flight twice. -/
  distinct : c.inFlight.Nodup
  /-- The activity counts the requests in flight. -/
  counted : c.activity.inFlight = c.inFlight.length
  /-- No two invocations have one ticket. -/
  tickets : (c.running.map (·.ticket)).Nodup
  /-- Every ticket has been given out. -/
  issued : ∀ i ∈ c.running, i.ticket ≤ c.lastTicket
  /-- Every request is running, or it is one of the answered ones, whose ids are those of the
  responses. -/
  answered : ∃ answered : List Request, received.Perm (answered ++ c.running.map (·.request)) ∧
    written.map (·.id) = answered.map (·.id)

namespace Accounted

variable {received : List Request} {written : List Response}

/-- A connection that has just been accepted has nothing in its books. -/
theorem start (maxFrameSize : Nat) (opened : Moment) :
    Accounted (.start maxFrameSize opened) [] [] where
  ids := rfl
  distinct := .nil
  counted := rfl
  tickets := .nil
  issued := fun _ hi => absurd hi List.not_mem_nil
  answered := ⟨[], .nil, rfl⟩

/-- What leaves the requests alone keeps the books. -/
theorem congr (h : Accounted c received written) (hids : c'.inFlight = c.inFlight)
    (hrunning : c'.running = c.running) (hlast : c'.lastTicket = c.lastTicket)
    (hcounted : c'.activity.inFlight = c.activity.inFlight) : Accounted c' received written where
  ids := by rw [hids, hrunning, h.ids]
  distinct := hids ▸ h.distinct
  counted := by rw [hcounted, hids, h.counted]
  tickets := hrunning ▸ h.tickets
  issued := by
    rw [hrunning, hlast]
    exact h.issued
  answered := hrunning ▸ h.answered

/-- A refused request is answered at once. -/
theorem refuse (h : Accounted c received written) {r : Request} {refusal : Response}
    (hid : refusal.id = r.id) (hopen : (c.respond d now refusal).1.ending = none) :
    Accounted (c.respond d now refusal).1 (received ++ [r])
      (written ++ responses (c.respond d now refusal).2) := by
  obtain ⟨hc, hwritten⟩ := respond_of_open hopen
  obtain ⟨answered, hperm, hmap⟩ := h.answered
  rw [hc, hwritten]
  have hsame : Accounted { c with activity := c.activity.touch now } received written :=
    h.congr rfl rfl rfl rfl
  refine { hsame with answered := ⟨answered ++ [r], ?_, ?_⟩ }
  · exact (hperm.append_right [r]).trans (perm_append_swap _ _ _)
  · rw [List.map_append, List.map_append, hmap]
    exact congrArg _ (congrArg (· :: []) ((d.reply_id _ refusal).trans hid))

/-- An admitted request runs. -/
theorem run (h : Accounted c received written) {r : Request} (hid : r.id ∉ c.inFlight)
    (isBound : Bool) :
    Accounted { c.withInFlight (c.inFlight ++ [r.id]) with
      lastTicket := c.lastTicket + 1
      running := c.running ++ [⟨c.lastTicket + 1, r, isBound⟩] } (received ++ [r]) written where
  ids := by
    rw [List.map_append, ← h.ids]
    rfl
  distinct := by
    refine List.nodup_append.mpr ⟨h.distinct, List.pairwise_singleton _ _, fun a ha b hb => ?_⟩
    intro he
    rw [he, List.mem_singleton.mp hb] at ha
    exact hid ha
  counted := rfl
  tickets := by
    rw [List.map_append]
    refine List.nodup_append.mpr ⟨h.tickets, List.pairwise_singleton _ _, fun a ha b hb => ?_⟩
    obtain ⟨i, hi, rfl⟩ := List.mem_map.mp ha
    have hle := h.issued i hi
    rw [List.mem_singleton.mp hb]
    dsimp only
    omega
  issued := by
    intro i hi
    change i.ticket ≤ c.lastTicket + 1
    rcases List.mem_append.mp hi with hi | hi
    · have hle := h.issued i hi
      omega
    · have he : i.ticket = c.lastTicket + 1 := congrArg (·.ticket) (List.mem_singleton.mp hi)
      exact Nat.le_of_eq he
  answered := by
    obtain ⟨answered, hperm, hmap⟩ := h.answered
    refine ⟨answered, ?_, hmap⟩
    rw [List.map_append, ← List.append_assoc]
    exact hperm.append_right [r]

/-- An invocation that has ended is answered and runs no more. -/
theorem complete (h : Accounted c received written) {ticket : Nat} {i : Invocation}
    (hi : c.invocation? ticket = some i) {r : Response} (hid : r.id = i.request.id)
    (hopen : (c.complete d now i r).1.ending = none) :
    Accounted (c.complete d now i r).1 received
      (written ++ responses (c.complete d now i r).2) := by
  unfold Connection.complete at hopen ⊢
  dsimp only at hopen ⊢
  obtain ⟨hc, hwritten⟩ := respond_of_open hopen
  obtain ⟨answered, hperm, hmap⟩ := h.answered
  have hticket : i.ticket = ticket := key_of_find? hi
  have hmem : i ∈ c.running := List.mem_of_find?_eq_some hi
  have hrunning : c.running.Perm (i :: c.running.filter (·.ticket != i.ticket)) := by
    rw [hticket]
    exact perm_cons_filter_key h.tickets hi
  have hdistinct : (c.running.map (·.request.id)).Nodup := h.ids ▸ h.distinct
  have herase : c.inFlight.erase r.id =
      (c.running.filter (·.ticket != i.ticket)).map (·.request.id) := by
    rw [h.ids, hid]
    exact (map_filter_key h.tickets hdistinct hmem).symm
  rw [hc, hwritten]
  constructor
  case ids => exact herase
  case distinct => exact h.distinct.erase r.id
  case counted => rfl
  case tickets => exact h.tickets.sublist (List.filter_sublist.map _)
  case issued => exact fun j hj => h.issued j (List.mem_of_mem_filter hj)
  case answered =>
    refine ⟨answered ++ [i.request], ?_, ?_⟩
    · rw [List.append_assoc]
      exact hperm.trans ((hrunning.map (·.request)).append_left answered)
    · rw [List.map_append, List.map_append, hmap]
      exact congrArg _ (congrArg (· :: []) ((d.reply_id _ r).trans hid))

end Accounted

/-- What an open connection makes of a request that it has received. -/
structure Handled (d : Dispatcher m) (now : Moment) (c : Connection) (r : Request)
    (after : Connection) (effects : List (ConnectionEffect m)) : Prop where
  /-- A request that matches its signature is refused as a duplicate exactly if its id is in
  flight. -/
  duplicate : r.isMatch = true →
    (responses effects = [(d.reply now.timestamp (r.duplicateRefusal now.timestamp)).1] ↔
      r.id ∈ c.inFlight)
  /-- A refusal leaves the requests in flight alone. -/
  refused : r.isMatch = false ∨ r.id ∈ c.inFlight → after.inFlight = c.inFlight ∧
    after.running = c.running ∧ after.activity.inFlight = c.activity.inFlight
  /-- Any other request runs, and is not answered yet. -/
  admitted : r.isMatch = true → r.id ∉ c.inFlight →
    after.inFlight = c.inFlight ++ [r.id] ∧
      after.running = c.running ++ [⟨c.lastTicket + 1, r, (d.method? r).isSome⟩] ∧
      responses effects = []

/-- A handler that starts writes nothing. -/
theorem responses_invoke (ticket : Nat) (f : Option (Method m)) (arguments : List Value) :
    responses (f.toList.map fun f => ConnectionEffect.invoke ticket f arguments) = [] := by
  cases f with
  | none => rfl
  | some f => rfl

/-- A request is refused or admitted by whether it matches and whether its id is in flight. -/
theorem handled_enter {r : Request} (hopen : (c.enter d now r).1.ending = none) :
    Handled d now c r (c.enter d now r).1 (c.enter d now r).2 := by
  unfold enter at hopen ⊢
  by_cases hmatch : r.isMatch = true
  · rw [hmatch, Bool.not_true, if_neg Bool.false_ne_true] at hopen ⊢
    by_cases hid : r.id ∈ c.inFlight
    · rw [if_pos (List.contains_iff_mem.mpr hid)] at hopen ⊢
      obtain ⟨hc, hwritten⟩ := respond_of_open hopen
      rw [hc]
      exact ⟨fun _ => ⟨fun _ => hid, fun _ => hwritten⟩, fun _ => ⟨rfl, rfl, rfl⟩,
        fun _ hnot => absurd hid hnot⟩
    · rw [if_neg fun hcontains => hid (List.contains_iff_mem.mp hcontains)]
      have hnone := responses_invoke (c.lastTicket + 1) (d.method? r) r.arguments
      refine ⟨fun _ => ⟨fun hwritten => ?_, fun hin => absurd hin hid⟩, fun hrefused => ?_,
        fun _ _ => ⟨rfl, rfl, hnone⟩⟩
      · rw [hnone] at hwritten
        cases hwritten
      · rcases hrefused with hnot | hin
        · rw [hmatch] at hnot
          cases hnot
        · exact absurd hin hid
  · rw [Bool.eq_false_iff.mpr hmatch, Bool.not_false, if_pos rfl] at hopen ⊢
    rw [(respond_of_open hopen).1]
    exact ⟨fun h => absurd h hmatch, fun _ => ⟨rfl, rfl, rfl⟩, fun h => absurd h hmatch⟩

/-- Entering a request keeps the books. -/
theorem Accounted.enter {received : List Request} {written : List Response}
    (h : Accounted c received written) {r : Request}
    (hopen : (c.enter d now r).1.ending = none) :
    Accounted (c.enter d now r).1 (received ++ [r])
      (written ++ responses (c.enter d now r).2) := by
  unfold Connection.enter at hopen ⊢
  split
  · rename_i hmatch
    rw [if_pos hmatch] at hopen
    exact h.refuse rfl hopen
  · rename_i hmatch
    rw [if_neg hmatch] at hopen
    split
    · rename_i hid
      rw [if_pos hid] at hopen
      exact h.refuse rfl hopen
    · rename_i hid
      have hnone := responses_invoke (c.lastTicket + 1) (d.method? r) r.arguments
      dsimp only
      rw [hnone, List.append_nil]
      exact h.run (fun hin => hid (List.contains_iff_mem.mpr hin)) _

/-- The requests that an event brings to an open connection. -/
def receivedBy (d : Dispatcher m) (c : Connection) : ConnectionEvent → List Request
  | .read _ =>
    match c.reader.next.1 with
    | .ok (some body) => (d.codec.decodeRequest body).toOption.toList
    | _ => []
  | _ => []

/-- Reading keeps the books. -/
theorem Accounted.read {received : List Request} {written : List Response}
    (h : Accounted c received written) {atEnd : Bool}
    (hopen : (c.read d now atEnd).1.ending = none) :
    Accounted (c.read d now atEnd).1 (received ++ c.receivedBy d (.read atEnd))
      (written ++ responses (c.read d now atEnd).2) := by
  unfold Connection.read at hopen ⊢
  unfold receivedBy
  generalize c.reader.next = out at hopen ⊢
  obtain ⟨next, reader⟩ := out
  have hread : Accounted { c with reader } received written := h.congr rfl rfl rfl rfl
  dsimp only at hopen ⊢
  cases next with
  | error e => cases hopen
  | ok frame =>
    cases frame with
    | none =>
      dsimp only at hopen ⊢
      cases atEnd with
      | false =>
        rw [List.append_nil]
        exact (List.append_nil written).symm ▸ hread
      | true =>
        rw [if_pos rfl] at hopen
        cases hend : reader.finish with
        | clean =>
          rw [hend] at hopen
          cases hopen
        | broken cause =>
          rw [hend] at hopen
          cases hopen
    | some body =>
      dsimp only at hopen ⊢
      cases hr : d.codec.decodeRequest body with
      | error e =>
        rw [hr] at hopen
        cases hopen
      | ok r =>
        rw [hr] at hopen
        exact hread.enter hopen

/-- A connection that has ended stays as it is. -/
theorem step_of_ended (hended : c.isEnded = true) (e : ConnectionEvent) :
    c.step d now e = (c, []) := by
  unfold step
  rw [if_pos hended]

/-- A step of an open connection after which it is open keeps the books. -/
theorem Accounted.step {received : List Request} {written : List Response}
    (h : Accounted c received written) (hended : c.isEnded = false) {e : ConnectionEvent}
    (hopen : (c.step d now e).1.ending = none) :
    Accounted (c.step d now e).1 (received ++ c.receivedBy d e)
      (written ++ responses (c.step d now e).2) := by
  have hidle {c' : Connection} (h' : Accounted c' received written) :
      Accounted c' (received ++ []) (written ++ responses ([] : List (ConnectionEffect m))) := by
    rw [List.append_nil]
    exact (List.append_nil written).symm ▸ h'
  unfold Connection.step at hopen ⊢
  rw [hended, if_neg Bool.false_ne_true] at hopen ⊢
  cases e with
  | receive bytes => exact hidle (h.congr rfl rfl rfl rfl)
  | read atEnd => exact h.read hopen
  | readFailed reason => cases hopen
  | handled ticket outcome =>
    dsimp only at hopen ⊢
    cases hi : c.invocation? ticket with
    | none => exact hidle h
    | some i =>
      rw [hi] at hopen
      dsimp only at hopen ⊢
      cases hbound : i.isBound with
      | false => exact hidle h
      | true =>
        rw [hbound, if_pos rfl] at hopen
        rw [if_pos rfl]
        change Accounted _ (received ++ []) _
        rw [List.append_nil]
        exact h.complete hi (i.request.report_id _ outcome) hopen
  | unbound ticket =>
    dsimp only at hopen ⊢
    cases hi : c.invocation? ticket with
    | none => exact hidle h
    | some i =>
      rw [hi] at hopen
      dsimp only at hopen ⊢
      cases hbound : i.isBound with
      | true => exact hidle h
      | false =>
        rw [hbound, if_neg Bool.false_ne_true] at hopen
        rw [if_neg Bool.false_ne_true]
        change Accounted _ (received ++ []) _
        rw [List.append_nil]
        exact h.complete hi rfl hopen
  | closing => exact hidle (h.congr rfl rfl rfl rfl)
  | close =>
    dsimp only at hopen ⊢
    cases hclosing : c.isClosing with
    | false => exact hidle h
    | true =>
      rw [hclosing, if_pos rfl] at hopen
      cases hopen

/-- The requests that a run receives, in order. -/
def received (d : Dispatcher m) (c : Connection) : List (Moment × ConnectionEvent) → List Request
  | [] => []
  | (now, e) :: rest =>
    (if c.isEnded then [] else c.receivedBy d e) ++ (c.step d now e).1.received d rest

/-- A run of a connection that has ended does nothing. -/
theorem run_of_ended (hended : c.isEnded = true) (events : List (Moment × ConnectionEvent)) :
    c.run d events = (c, []) := by
  induction events with
  | nil => rfl
  | cons event rest ih =>
    obtain ⟨now, e⟩ := event
    rw [run, step_of_ended hended]
    dsimp only
    rw [ih]
    rfl

/-- A connection that is open at the end of a run has been open all the time. -/
theorem ending_of_run {events : List (Moment × ConnectionEvent)}
    (hopen : (c.run d events).1.ending = none) : c.ending = none := by
  cases hending : c.ending with
  | none => rfl
  | some how =>
    have hended : c.isEnded = true := congrArg Option.isSome hending
    rw [run_of_ended hended, hending] at hopen
    cases hopen

/-- A run after which the connection is open keeps the books. -/
theorem Accounted.after_run {received : List Request} {written : List Response}
    (h : Accounted c received written) {events : List (Moment × ConnectionEvent)}
    (hopen : (c.run d events).1.ending = none) :
    Accounted (c.run d events).1 (received ++ c.received d events)
      (written ++ responses (c.run d events).2) := by
  induction events generalizing c received written with
  | nil =>
    rw [Connection.received, List.append_nil]
    exact (List.append_nil written).symm ▸ h
  | cons event rest ih =>
    obtain ⟨now, e⟩ := event
    have hended : c.isEnded = false := congrArg Option.isSome (ending_of_run hopen)
    change ((c.step d now e).1.run d rest).1.ending = none at hopen
    change Accounted ((c.step d now e).1.run d rest).1
      (received ++ ((if c.isEnded then [] else c.receivedBy d e) ++
        (c.step d now e).1.received d rest))
      (written ++ responses ((c.step d now e).2 ++ ((c.step d now e).1.run d rest).2))
    have hafter : (c.step d now e).1.ending = none := ending_of_run hopen
    rw [hended, if_neg Bool.false_ne_true, responses_append, ← List.append_assoc,
      ← List.append_assoc]
    exact ih (h.step hended hafter) hopen

/-- The books add up in number. -/
theorem Accounted.length_eq {received : List Request} {written : List Response}
    (h : Accounted c received written) :
    written.length + c.inFlight.length = received.length := by
  obtain ⟨answered, hperm, hmap⟩ := h.answered
  have hreceived := hperm.length_eq
  have hwritten := congrArg List.length hmap
  have hids := congrArg List.length h.ids
  simp only [List.length_append, List.length_map] at hreceived hwritten hids
  omega

/-- In every run of a connection that is open at its end, the requests in flight are the running
ones, each request has had one response or is in flight, and the next request is refused as a
duplicate exactly if its id is in flight. -/
theorem run_inFlight_accounted (d : Dispatcher m) (maxFrameSize : Nat) (opened : Moment)
    (events : List (Moment × ConnectionEvent))
    (hopen : ((start maxFrameSize opened).run d events).1.ending = none) :
    Accounted ((start maxFrameSize opened).run d events).1
      ((start maxFrameSize opened).received d events)
      (responses ((start maxFrameSize opened).run d events).2) ∧
    (responses ((start maxFrameSize opened).run d events).2).length +
        ((start maxFrameSize opened).run d events).1.inFlight.length =
      ((start maxFrameSize opened).received d events).length ∧
    ∀ now atEnd body reader r,
      ((start maxFrameSize opened).run d events).1.reader.next = (.ok (some body), reader) →
      d.codec.decodeRequest body = .ok r →
      (((start maxFrameSize opened).run d events).1.step d now (.read atEnd)).1.ending = none →
      Handled d now ((start maxFrameSize opened).run d events).1 r
        (((start maxFrameSize opened).run d events).1.step d now (.read atEnd)).1
        (((start maxFrameSize opened).run d events).1.step d now (.read atEnd)).2 := by
  have h := (Accounted.start maxFrameSize opened).after_run hopen
  refine ⟨h, h.length_eq, fun now atEnd body reader r hnext hr hafter => ?_⟩
  generalize ((start maxFrameSize opened).run d events).1 = c at hopen hnext hafter ⊢
  have hended : c.isEnded = false := by rw [isEnded, hopen]; rfl
  unfold Connection.step at hafter ⊢
  rw [hended, if_neg Bool.false_ne_true] at hafter ⊢
  dsimp only at hafter ⊢
  rw [read, hnext] at hafter ⊢
  dsimp only at hafter ⊢
  rw [hr] at hafter ⊢
  have hhandled := handled_enter hafter
  exact ⟨hhandled.duplicate, hhandled.refused, hhandled.admitted⟩

namespace Repeated

/-- A server without services. -/
def dispatcher : Dispatcher Id := ⟨.empty, .standard, 1000⟩

/-- The frame of a request with the id 7. -/
def frame : List UInt8 :=
  Frame.wrap [27, 7, 0, 5, 83, 116, 111, 114, 101, 4, 112, 105, 110, 103, 0, 0, 0, 0]

/-- The moment at which everything happens. -/
def moment : Moment := ⟨0, 0⟩

/-- A request comes twice, is answered, and comes again. -/
def events : List (Moment × ConnectionEvent) :=
  [.receive (frame ++ frame), .read false, .read false, .unbound 1, .receive frame,
    .read false].map (moment, ·)

end Repeated

/-- An id that comes twice is refused once, and can be used again after its response. -/
theorem run_inFlight_accounted_repeated :
    ((start 1000 Repeated.moment).run Repeated.dispatcher Repeated.events).1.ending = none ∧
    Accounted ((start 1000 Repeated.moment).run Repeated.dispatcher Repeated.events).1
      ((start 1000 Repeated.moment).received Repeated.dispatcher Repeated.events)
      (responses ((start 1000 Repeated.moment).run Repeated.dispatcher Repeated.events).2) ∧
    ((start 1000 Repeated.moment).run Repeated.dispatcher Repeated.events).1.inFlight = [7] ∧
    (responses ((start 1000 Repeated.moment).run Repeated.dispatcher Repeated.events).2).map
      (fun r => (r.id, r.status)) = [(7, .parameterError), (7, .lookupError)] := by
  have hopen : ((start 1000 Repeated.moment).run Repeated.dispatcher Repeated.events).1.ending =
      none := by
    decide +kernel
  have h := run_inFlight_accounted Repeated.dispatcher 1000 Repeated.moment Repeated.events hopen
  exact ⟨hopen, h.1, by decide +kernel, by decide +kernel⟩

end Connection

end RemoteCall
