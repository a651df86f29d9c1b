import RemoteCall.Proofs.Exchange.Stages

/-!
# At the connection

What happens at the server's end of an exchange, and where it takes the calls: a request that has
been read is refused if its arguments do not match and runs otherwise, and an invocation that ends
gets its response. Each response tells what its call comes to. No request is refused as a
duplicate, since no two calls that wait have one request id.
-/

namespace RemoteCall

variable {m : Type → Type}

namespace Partners

variable {p : Partners m} {c : Connection} {served : List (RunningCall m)}
  {answered : List (AnsweredCall m)} {now : Moment}

/-- A response that the codec carries over is written as it is. -/
theorem Returns.respond_eq {r : Response} {body : List UInt8} (h : p.Returns r body)
    (now : Moment) (c : Connection) : c.respond p.dispatcher now r =
      ({ c with activity := c.activity.touch now }, [.write r (Frame.wrap body)]) := by
  have hsends : p.dispatcher.Sends r body := ⟨h.encoded, h.fits.2⟩
  rw [Connection.respond, hsends.write_eq]

namespace HoldsConnection

/-- A connection that holds its calls has not ended. -/
theorem isEnded_eq (h : p.HoldsConnection c served answered) : c.isEnded = false := by
  rw [Connection.isEnded, h.isOpen]
  rfl

/-- The reader may go on. -/
theorem withReader (h : p.HoldsConnection c served answered) {reader : FrameReader}
    (hlimit : reader.limit = p.dispatcher.maxFrameSize) :
    p.HoldsConnection { c with reader } served answered := by
  obtain ⟨received, written, haccounted⟩ := h.accounted
  exact { h with
    limit := hlimit
    accounted := ⟨received, written, haccounted.congr rfl rfl rfl rfl⟩ }

/-- A response that is written is on its way. -/
theorem touch (h : p.HoldsConnection c served answered) {a : AnsweredCall m}
    (ha : p.Answers a) (now : Moment) :
    p.HoldsConnection { c with activity := c.activity.touch now } served
      (answered ++ [a]) := by
  obtain ⟨received, written, haccounted⟩ := h.accounted
  refine { h with
    accounted := ⟨received, written, haccounted.congr rfl rfl rfl rfl⟩
    answers := ?_ }
  intro b hb
  rcases List.mem_append.mp hb with hb | hb
  · exact h.answers b hb
  · rw [List.mem_singleton.mp hb]
    exact ha

/-- The ids in flight are those of the calls that run. -/
theorem inFlight_eq (h : p.HoldsConnection c served answered) :
    c.inFlight = served.map (·.call.request.id) := by
  obtain ⟨received, written, haccounted⟩ := h.accounted
  rw [haccounted.ids, h.running, List.map_map]
  refine List.map_congr_left fun t ht => ?_
  rw [Function.comp_apply, (h.runs t ht).request]

/-- A request that matches and whose id is not in flight runs. -/
theorem accept (h : p.HoldsConnection c served answered) {call : AcceptedCall} {ws : List Value}
    (hmatch : call.request.isMatch = true) (halike : Graph.Alike call.request.arguments ws)
    (hfresh : call.request.id ∉ served.map (·.call.request.id)) (now : Moment) :
    ∃ i work connection effects,
      c.enter p.dispatcher now { call.request with arguments := ws } = (connection, effects) ∧
      connection.reader = c.reader ∧ effects.flatMap ConnectionEffect.bytes = [] ∧
      effects.filterMap connection.started = work.toList ∧
      p.HoldsConnection connection (served ++ [⟨call, i, work⟩]) answered := by
  obtain ⟨received, written, haccounted⟩ := h.accounted
  have hid : call.request.id ∉ c.inFlight := h.inFlight_eq ▸ hfresh
  have hsame : ({ call.request with arguments := ws } : Request).isMatch = true := by
    rw [Request.isMatch, ← Signature.isMatch_congr _ halike.contents]
    exact hmatch
  have hmethod : p.dispatcher.method? { call.request with arguments := ws } =
      p.dispatcher.method? call.request := rfl
  let i : Invocation := ⟨c.lastTicket + 1, { call.request with arguments := ws },
    (p.dispatcher.method? call.request).isSome⟩
  let admitted : Connection := { c.withInFlight (c.inFlight ++ [call.request.id]) with
    lastTicket := c.lastTicket + 1, running := c.running ++ [i] }
  have haccounted' : admitted.Accounted (received ++ [i.request]) written :=
    haccounted.run (r := i.request) hid i.isBound
  have hlast : i ∈ admitted.running :=
    List.mem_append_right c.running (List.mem_singleton_self i)
  have hfound : admitted.invocation? i.ticket = some i :=
    find?_key_of_mem haccounted'.tickets hlast
  refine ⟨i, (p.dispatcher.method? call.request).map fun f => ⟨i, f, ws⟩, admitted,
    (p.dispatcher.method? call.request).toList.map fun f => .invoke (c.lastTicket + 1) f ws,
    ?enter, ?reader, ?bytes, ?started, ?holds⟩
  case enter =>
    rw [Connection.enter, hsame, Bool.not_true, if_neg Bool.false_ne_true, hmethod]
    exact if_neg fun hcontains => hid (List.contains_iff_mem.mp hcontains)
  case reader => rfl
  case bytes =>
    cases p.dispatcher.method? call.request with
    | none => rfl
    | some f => rfl
  case started =>
    have hstarted (f : Method m) :
        admitted.started (.invoke (c.lastTicket + 1) f ws) = some ⟨i, f, ws⟩ := by
      rw [Connection.started, hfound]
      rfl
    cases p.dispatcher.method? call.request with
    | none => rfl
    | some f => exact List.filterMap_cons_some (hstarted f)
  case holds =>
    refine { h with running := ?_, accounted := ⟨_, written, haccounted'⟩, runs := ?_ }
    · rw [List.map_append, ← h.running]
      rfl
    · intro t ht
      rcases List.mem_append.mp ht with ht | ht
      · exact h.runs t ht
      · obtain rfl := List.mem_singleton.mp ht
        exact ⟨hmatch, rfl, halike, rfl, rfl⟩

/-- A request that does not match is refused. -/
theorem refuse (h : p.HoldsConnection c served answered) {call : AcceptedCall}
    {ws : List Value} (hmatch : call.request.isMatch = false)
    (halike : Graph.Alike call.request.arguments ws)
    (hreturns : ∀ r, c.refusal? now { call.request with arguments := ws } = some r →
      ∃ body, p.Returns r body) :
    ∃ r body, c.enter p.dispatcher now { call.request with arguments := ws } =
        ({ c with activity := c.activity.touch now }, [.write r (Frame.wrap body)]) ∧
      p.HoldsConnection { c with activity := c.activity.touch now } served
        (answered ++ [⟨call, none, r, body⟩]) := by
  have hsame : ({ call.request with arguments := ws } : Request).isMatch = false := by
    rw [Request.isMatch, ← Signature.isMatch_congr _ halike.contents]
    exact hmatch
  have hrefusal : c.refusal? now { call.request with arguments := ws } =
      some (({ call.request with arguments := ws } : Request).argumentsRefusal now.timestamp) := by
    rw [Connection.refusal?, hsame]
    rfl
  obtain ⟨body, hbody⟩ := hreturns _ hrefusal
  refine ⟨_, body, (Connection.enter_of_refusal hrefusal).trans (hbody.respond_eq now c), ?_⟩
  exact h.touch ⟨rfl, hbody, .parameterError _ hmatch⟩ now

/-- The invocation of a ticket runs for a call. -/
theorem find?_served (h : p.HoldsConnection c served answered) {ticket : Nat}
    {i : Invocation} (hi : c.invocation? ticket = some i) :
    ∃ t, t.invocation = i ∧ t ∈ served ∧
      served.Perm (t :: served.filter (·.invocation.ticket != i.ticket)) := by
  obtain ⟨received, written, haccounted⟩ := h.accounted
  have htickets : (served.map (·.invocation.ticket)).Nodup := by
    have hnodup := haccounted.tickets
    rwa [h.running, List.map_map] at hnodup
  have hfind := hi
  rw [Connection.invocation?, h.running, List.find?_map] at hfind
  obtain ⟨t, ht, rfl⟩ := Option.map_eq_some_iff.mp hfind
  have hticket : t.invocation.ticket = ticket := key_of_find? hi
  refine ⟨t, rfl, List.mem_of_find?_eq_some ht, ?_⟩
  rw [hticket]
  exact perm_cons_filter_key htickets ht

/-- An invocation that ends gets its response. -/
theorem complete (h : p.HoldsConnection c served answered) {ticket : Nat} {i : Invocation}
    (hi : c.invocation? ticket = some i) {r : Response} {body : List UInt8}
    (hid : r.id = i.request.id) (hbody : p.Returns r body)
    (hagrees : ∀ t ∈ served, t.invocation = i → p.Agrees t.call.request t.work r.payload?)
    (now : Moment) :
    ∃ t others connection, served.Perm (t :: others) ∧
      c.complete p.dispatcher now i r = (connection, [.write r (Frame.wrap body)]) ∧
      connection.reader = c.reader ∧
      p.HoldsConnection connection others (answered ++ [⟨t.call, t.work, r, body⟩]) := by
  obtain ⟨t, rfl, hmem, hperm⟩ := h.find?_served hi
  obtain ⟨received, written, haccounted⟩ := h.accounted
  have hcomplete := hbody.respond_eq now
    (({ c with running := c.running.filter (·.ticket != t.invocation.ticket) } :
      Connection).release r.id)
  have hopen : (c.complete p.dispatcher now t.invocation r).1.ending = none := by
    rw [Connection.complete, hcomplete]
    exact h.isOpen
  have haccounted' := haccounted.complete hi hid hopen
  rw [Connection.complete, hcomplete] at haccounted'
  refine ⟨t, _, _, hperm, hcomplete, rfl, ?_⟩
  constructor
  case isOpen => exact h.isOpen
  case limit => exact h.limit
  case running =>
    change c.running.filter _ = _
    rw [h.running, List.filter_map]
    rfl
  case accounted => exact ⟨_, _, haccounted'⟩
  case runs => exact fun t' ht' => h.runs t' (List.mem_of_mem_filter ht')
  case answers =>
    have hcallId : t.invocation.request.id = t.call.request.id := by
      rw [(h.runs t hmem).request]
    intro a ha
    rcases List.mem_append.mp ha with ha | ha
    · exact h.answers a ha
    · obtain rfl := List.mem_singleton.mp ha
      exact ⟨hid.trans hcallId, hbody, hagrees t hmem rfl⟩

end HoldsConnection

end Partners

end RemoteCall
