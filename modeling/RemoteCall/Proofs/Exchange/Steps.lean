import RemoteCall.Proofs.Exchange.AtConnection
import RemoteCall.Proofs.Exchange.AtSession

/-!
# What a step of an exchange does

A step of an exchange moves a call from one place to the next, or takes in a new one, or resolves
some whose responses have arrived. The books over all places are kept: what waited before or is new
waits afterwards or has been resolved with what the call comes to.
-/

namespace RemoteCall

variable {m : Type → Type}

namespace Partners

/-- What a stretch of an exchange does, from the calls that waited before and those made in between
to the calls that wait afterwards and those that have been settled. -/
structure Advances (p : Partners m) (g g' : Stages m) (made : List (Nat × Request))
    (settled : List (SettledCall m)) (out : Exchange × Exchange.Effects m) : Prop where
  holds : p.Holds out.1 g'
  /-- No call is lost, and none is settled twice. -/
  conserved : (g.calls.map AcceptedCall.asked ++ made).Perm
    (g'.calls.map AcceptedCall.asked ++ settled.map SettledCall.asked)
  /-- Every handler that starts does so for one call. -/
  performed : (g.works ++ out.2.2).Perm (g'.works ++ settled.flatMap (·.work.toList))
  /-- Only settled calls are resolved. -/
  resolved : resolutions out.2.1 = settled.map SettledCall.resolution
  settles : ∀ t ∈ settled, p.Settles t

variable {p : Partners m} {x : Exchange} {g g' : Stages m} {now : Moment}

/-- A stretch in which no call moves. -/
theorem Advances.still {out : Exchange × Exchange.Effects m} (holds : p.Holds out.1 g)
    (hstarted : out.2.2 = []) (hresolved : resolutions out.2.1 = []) :
    p.Advances g g [] [] out where
  holds := holds
  conserved := .refl _
  performed := by
    rw [hstarted]
    exact .refl _
  resolved := hresolved
  settles := fun t ht => absurd ht List.not_mem_nil

/-- A stretch in which a call moves on and none is settled. -/
theorem Advances.moved {out : Exchange × Exchange.Effects m} (holds : p.Holds out.1 g')
    (hmoves : g.Moves g' out.2.2) (hresolved : resolutions out.2.1 = []) :
    p.Advances g g' [] [] out where
  holds := holds
  conserved := by
    rw [List.map_nil, List.append_nil, List.append_nil]
    exact hmoves.calls.symm.map _
  performed := by
    rw [List.flatMap_nil, List.append_nil]
    exact hmoves.works.symm
  resolved := hresolved
  settles := fun t ht => absurd ht List.not_mem_nil

/-- In a step a call moves on, or the step is idle for some reason. -/
def Progresses (p : Partners m) (g : Stages m) (idle : Prop)
    (out : Exchange × Exchange.Effects m) : Prop :=
  (idle ∧ p.Advances g g [] [] out) ∨ ∃ g', g'.owed < g.owed ∧ p.Advances g g' [] [] out

/-- Either way the books are kept. -/
theorem Progresses.exists_advances {idle : Prop} {out : Exchange × Exchange.Effects m}
    (h : p.Progresses g idle out) : ∃ g', p.Advances g g' [] [] out := by
  rcases h with ⟨-, hadvances⟩ | ⟨g', -, hadvances⟩
  · exact ⟨g, hadvances⟩
  · exact ⟨g', hadvances⟩

/-- If the step is not idle a call moves on. -/
theorem Progresses.exists_moved {idle : Prop} {out : Exchange × Exchange.Effects m}
    (h : p.Progresses g idle out) (hbusy : ¬ idle) :
    ∃ g', g'.owed < g.owed ∧ p.Advances g g' [] [] out := by
  rcases h with ⟨hidle, -⟩ | hmoved
  · exact absurd hidle hbusy
  · exact hmoved

/-- A call moves on. -/
theorem Progresses.moved {idle : Prop} {out : Exchange × Exchange.Effects m}
    (holds : p.Holds out.1 g') (hmoves : g.Moves g' out.2.2)
    (hresolved : resolutions out.2.1 = []) : p.Progresses g idle out :=
  .inr ⟨g', hmoves.owed, .moved holds hmoves hresolved⟩

namespace Holds

/-- What happens to the session leaves the connection alone. -/
theorem atSession (h : p.Holds x g) (e : SessionEvent)
    {unqueued outbound upstream : List AcceptedCall}
    (hsession : p.HoldsSession (x.session.step e).1 { g with unqueued, outbound, upstream })
    (hreader : (x.session.step e).1.reader = x.session.reader)
    (hup : x.connection.reader.Carries
      (x.upstream ++ (x.session.step e).2.flatMap SessionEffect.bytes) (upstream.map (·.body))) :
    p.Holds (x.atSession (m := m) e).1 { g with unqueued, outbound, upstream } where
  session := hsession
  connection := h.connection
  up := hup
  down := by
    change (x.session.step e).1.reader.Carries _ _
    rw [hreader]
    exact h.down

/-- A step of the session that does nothing. -/
theorem atSession_idle (h : p.Holds x g) {e : SessionEvent}
    (hstep : x.session.step e = (x.session, [])) : p.Advances g g [] [] (x.atSession e) := by
  have hout : x.atSession (m := m) e = (x, [], []) := by
    simp only [Exchange.atSession, hstep, List.flatMap_nil, List.append_nil]
  rw [hout]
  exact .still h rfl rfl

/-- What is written nowhere does not change what is on its way. -/
theorem up_of_silent (h : p.Holds x g) {effects : List SessionEffect} (hsilent : effects = []) :
    x.connection.reader.Carries (x.upstream ++ effects.flatMap SessionEffect.bytes)
      (g.upstream.map (·.body)) := by
  rw [hsilent, List.flatMap_nil, List.append_nil]
  exact h.up

/-- A new call takes its slot. -/
theorem enter (h : p.Holds x g) {caller : Nat} {r : Request} {body : List UInt8}
    (hfree : x.session.slot? r.id = none) (hbody : p.Carries r body) :
    ∃ g', p.Advances g g' [(caller, r)] [] (x.step p now (.enter caller r)) := by
  obtain ⟨hsession, hsilent⟩ := h.session.enter caller hfree hbody
  have hholds := h.atSession (.enter caller r) hsession (Session.reader_enter _ _ _)
    (h.up_of_silent hsilent)
  refine ⟨_, hholds, ?_, .refl _, congrArg resolutions hsilent,
    fun t ht => absurd ht List.not_mem_nil⟩
  rw [List.map_nil, List.append_nil]
  refine (List.perm_append_singleton _ _).trans ?_
  have hperm := g.perm_enter ⟨r, ⟨r.id, x.session.lastGeneration + 1, caller⟩, body⟩
  exact hperm.symm.map AcceptedCall.asked

/-- A request is handed over, if one waits under the generation. -/
theorem queue (h : p.Holds x g) (generation : Nat) :
    p.Progresses g (g.unqueued.find? (·.slot.generation == generation) = none)
      (x.step p now (.queue generation)) := by
  rcases h.session.queue generation with
    ⟨hnone, hidle⟩ | ⟨call, rest, hperm, hsession, hsilent⟩
  · have hstep : x.session.step (.queue generation) = (x.session, []) := hidle
    exact .inl ⟨hnone, h.atSession_idle hstep⟩
  · have hholds := h.atSession (.queue generation) hsession (Session.reader_queue _ _)
      (h.up_of_silent hsilent)
    exact .moved hholds (g.moves_queue hperm) (congrArg resolutions hsilent)

/-- A request is written, if one waits to be. -/
theorem write (h : p.Holds x g) (hagreed : p.Agreed) :
    p.Progresses g (g.outbound = []) (x.step p now .write) := by
  rcases h.session.writeNext with ⟨hnone, hidle⟩ | ⟨call, rest, hfirst, hsession, heffects⟩
  · have hstep : x.session.step .writeNext = (x.session, []) := hidle
    exact .inl ⟨hnone, h.atSession_idle hstep⟩
  · have hmem : call ∈ g.calls := g.mem_calls_of_outbound (hfirst ▸ List.mem_cons_self)
    have hfits := (h.session.books.sound call hmem).carries.fits
    have hlength := (hagreed.isLength hfits).2
    rw [← h.connection.limit] at hlength
    have hbytes : call.outbound.effects.flatMap SessionEffect.bytes = Frame.wrap call.body :=
      List.append_nil _
    have hup : x.connection.reader.Carries
        (x.upstream ++ (x.session.step .writeNext).2.flatMap SessionEffect.bytes)
        ((g.upstream ++ [call]).map (·.body)) := by
      rw [Session.step, heffects, hbytes, List.map_append]
      exact h.up.write hlength
    have hholds := h.atSession .writeNext hsession
      (Session.reader_step h.session.isClosed_eq .writeNext) hup
    exact .moved hholds (g.moves_write hfirst) (congrArg resolutions heffects)

/-- Responses arrive, and all of them if all bytes do. -/
theorem deliver (h : p.Holds x g) (hagreed : p.Agreed) (count : Nat) :
    ∃ later settled, (x.downstream.drop count = [] → later = []) ∧
      p.Advances g { g with downstream := later } [] settled
        (x.step p now (.deliver count)) := by
  have hdown := h.down
  rw [← List.take_append_drop count x.downstream] at hdown
  obtain ⟨arriving, later, settled, hsplit, hasked, hworks, hsettles, hsession, hcarries,
    hresolved⟩ := h.session.receive hagreed hdown h.connection.answers
  obtain ⟨hcalls, hperm⟩ := g.perm_deliver hsplit
  have hsilent :=
    bytes_of_transmissions (x.session.posts_receive (x.downstream.take count)).transmitted
  have hup : x.connection.reader.Carries
      (x.upstream ++ (x.session.receive (x.downstream.take count)).2.flatMap SessionEffect.bytes)
      (g.upstream.map (·.body)) := by
    rw [hsilent, List.append_nil]
    exact h.up
  refine ⟨later, settled, fun hall => ?all, ?holds, ?conserved, ?performed, hresolved, hsettles⟩
  case all =>
    rw [hall] at hcarries
    exact List.map_eq_nil_iff.mp (hcarries.eq_nil hsession.settled)
  case holds =>
    exact ⟨hsession, { h.connection with
      answers := fun a ha => h.connection.answers a (hsplit ▸ List.mem_append_right arriving ha) },
      hup, hcarries⟩
  case conserved =>
    have hmoved := hcalls.map AcceptedCall.asked
    rw [List.map_append, List.map_map] at hmoved
    rw [List.append_nil, hasked]
    exact hmoved.trans List.perm_append_comm
  case performed =>
    have hsame : settled.flatMap (·.work.toList) = arriving.flatMap (·.work.toList) := by
      have hflat := congrArg (List.flatMap Option.toList) hworks
      rwa [List.flatMap_map, List.flatMap_map] at hflat
    rw [hsame]
    refine .trans ?_ List.perm_append_comm
    exact (List.append_nil g.works).symm ▸ hperm

/-- What happens to the connection leaves the session alone. -/
theorem atConnection (h : p.Holds x g) {e : ConnectionEvent} {connection : Connection}
    {effects : List (ConnectionEffect m)}
    (hstep : x.connection.step p.dispatcher now e = (connection, effects))
    {upstream : List AcceptedCall} {running : List (RunningCall m)}
    {downstream : List (AnsweredCall m)}
    (hmoves : g.Moves { g with upstream, running, downstream }
      (effects.filterMap connection.started))
    (hconnection : p.HoldsConnection connection running downstream)
    (hup : connection.reader.Carries x.upstream (upstream.map (·.body)))
    (hdown : x.session.reader.Carries
      (x.downstream ++ effects.flatMap ConnectionEffect.bytes) (downstream.map (·.body)))
    {idle : Prop} : p.Progresses g idle (x.atConnection p now e) := by
  have hout : x.atConnection p now e = ({ x with
      connection
      downstream := x.downstream ++ effects.flatMap ConnectionEffect.bytes },
      [], effects.filterMap connection.started) := by
    simp only [Exchange.atConnection, hstep]
  have hsession := h.session.perm hmoves.calls rfl rfl
  rw [hout]
  exact .moved ⟨hsession, hconnection, hup, hdown⟩ hmoves rfl

/-- A step of the connection without effects changes at most its reader. -/
theorem atConnection_idle (h : p.Holds x g) {e : ConnectionEvent} {reader : FrameReader}
    (hstep : x.connection.step p.dispatcher now e = ({ x.connection with reader }, []))
    (hlimit : reader.limit = x.connection.reader.limit)
    (hup : reader.Carries x.upstream (g.upstream.map (·.body))) :
    p.Advances g g [] [] (x.atConnection p now e) := by
  have hout : x.atConnection p now e =
      ({ x with connection := { x.connection with reader } }, [], []) := by
    simp only [Exchange.atConnection, hstep, List.flatMap_nil, List.append_nil,
      List.filterMap_nil]
  have hconnection := h.connection.withReader (hlimit.trans h.connection.limit)
  rw [hout]
  exact .still ⟨h.session, hconnection, hup, h.down⟩ rfl rfl

/-- A response that is written is on its way. -/
theorem down_write (h : p.Holds x g) (hagreed : p.Agreed) (a : AnsweredCall m)
    (hbody : p.Returns a.response a.body) : x.session.reader.Carries
      (x.downstream ++
        List.flatMap ConnectionEffect.bytes
          [.write (m := m) a.response (Frame.wrap a.body)])
      ((g.downstream ++ [a]).map (·.body)) := by
  have hbytes : List.flatMap ConnectionEffect.bytes
      [.write (m := m) a.response (Frame.wrap a.body)] = Frame.wrap a.body := List.append_nil _
  have hlength := (hagreed.isLength hbody.fits).1
  rw [← h.session.limit] at hlength
  rw [hbytes, List.map_append]
  exact h.down.write hlength

/-- Requests arrive. -/
theorem arrive (h : p.Holds x g) (count : Nat) :
    p.Advances g g [] [] (x.step p now (.arrive count)) := by
  have hup := h.up
  rw [← List.take_append_drop count x.upstream] at hup
  have hstep : x.connection.step p.dispatcher now (.receive (x.upstream.take count)) =
      ({ x.connection with reader := x.connection.reader.feed (x.upstream.take count) }, []) := by
    rw [Connection.step, h.connection.isEnded_eq, if_neg Bool.false_ne_true]
  have hout : x.step p now (.arrive count) = ({ x with
      connection :=
        { x.connection with reader := x.connection.reader.feed (x.upstream.take count) }
      upstream := x.upstream.drop count }, [], []) := by
    simp only [Exchange.step, Exchange.atConnection, hstep, List.flatMap_nil, List.append_nil,
      List.filterMap_nil]
  rw [hout]
  exact .still ⟨h.session, h.connection.withReader h.connection.limit, hup.feed, h.down⟩ rfl rfl

/-- An invocation that ends is answered. -/
theorem complete (h : p.Holds x g) (hagreed : p.Agreed) {e : ConnectionEvent} {ticket : Nat}
    {i : Invocation} (hi : x.connection.invocation? ticket = some i) {r : Response}
    {body : List UInt8} (hid : r.id = i.request.id) (hbody : p.Returns r body)
    (hagrees : ∀ t ∈ g.running, t.invocation = i → p.Agrees t.call.request t.work r.payload?)
    (hstep : x.connection.step p.dispatcher now e =
      x.connection.complete p.dispatcher now i r)
    {idle : Prop} : p.Progresses g idle (x.atConnection p now e) := by
  obtain ⟨t, others, connection, hperm, hcomplete, hreader, hholds⟩ :=
    h.connection.complete hi hid hbody hagrees now
  refine h.atConnection (hstep.trans hcomplete) (g.moves_complete hperm r body) hholds ?_ ?_
  · rw [hreader]
    exact h.up
  · exact h.down_write hagreed ⟨t.call, t.work, r, body⟩ hbody

/-- A handler ends, if one runs under the ticket. -/
theorem handled (h : p.Holds x g) (hagreed : p.Agreed) (ticket : Nat)
    (hreturns : ∀ r, x.called? p now (.handled ticket) = some r → ∃ body, p.Returns r body) :
    p.Progresses g (∀ i, x.connection.invocation? ticket = some i → i.isBound = false)
      (x.step p now (.handled ticket)) := by
  unfold Exchange.step
  unfold Exchange.called? at hreturns
  simp only [Exchange.answering?] at hreturns ⊢
  cases hi : x.connection.invocation? ticket with
  | none =>
    refine .inl ⟨fun i hsome => ?_, .still h rfl rfl⟩
    cases hsome
  | some i =>
    simp only [hi, Option.map_some, Option.bind_some, Connection.response?] at hreturns ⊢
    have hstep : x.connection.step p.dispatcher now (.handled ticket (p.outcome i)) =
        if i.isBound then x.connection.complete p.dispatcher now i
          (i.request.report now.timestamp (p.outcome i)) else (x.connection, []) := by
      simp only [Connection.step, h.connection.isEnded_eq, hi, Bool.false_eq_true, if_false]
    cases hbound : i.isBound with
    | false =>
      rw [hbound, if_neg Bool.false_ne_true] at hstep
      refine .inl ⟨?_, h.atConnection_idle hstep rfl h.up⟩
      rintro _ ⟨⟩
      exact hbound
    | true =>
      rw [hbound, if_pos rfl] at hstep hreturns
      obtain ⟨body, hbody⟩ := hreturns _ rfl
      refine h.complete hagreed hi (i.request.report_id _ _) hbody ?_ hstep
      rintro t ht rfl
      exact (h.connection.runs t ht).agrees_report hbound now.timestamp

/-- A request for which no method is bound gets its response, if there is one under the ticket. -/
theorem unbound (h : p.Holds x g) (hagreed : p.Agreed) (ticket : Nat)
    (hreturns : ∀ r, x.called? p now (.unbound ticket) = some r → ∃ body, p.Returns r body) :
    p.Progresses g (∀ i, x.connection.invocation? ticket = some i → i.isBound = true)
      (x.step p now (.unbound ticket)) := by
  change p.Progresses g _ (x.atConnection p now (.unbound ticket))
  change ∀ r, x.connection.response? p.dispatcher now (.unbound ticket) = some r → _ at hreturns
  cases hi : x.connection.invocation? ticket with
  | none =>
    have hstep : x.connection.step p.dispatcher now (.unbound ticket) = (x.connection, []) := by
      simp only [Connection.step, h.connection.isEnded_eq, hi, Bool.false_eq_true, if_false]
    refine .inl ⟨fun i hsome => ?_, h.atConnection_idle hstep rfl h.up⟩
    cases hsome
  | some i =>
    simp only [Connection.response?, hi] at hreturns
    have hstep : x.connection.step p.dispatcher now (.unbound ticket) =
        if i.isBound then (x.connection, []) else
          x.connection.complete p.dispatcher now i (i.request.lookupRefusal now.timestamp) := by
      simp only [Connection.step, h.connection.isEnded_eq, hi, Bool.false_eq_true, if_false]
    cases hbound : i.isBound with
    | true =>
      rw [hbound, if_pos rfl] at hstep
      refine .inl ⟨?_, h.atConnection_idle hstep rfl h.up⟩
      rintro _ ⟨⟩
      exact hbound
    | false =>
      rw [hbound, if_neg Bool.false_ne_true] at hstep hreturns
      obtain ⟨body, hbody⟩ := hreturns _ rfl
      refine h.complete hagreed hi rfl hbody ?_ hstep
      rintro t ht rfl
      exact (h.connection.runs t ht).agrees_lookupRefusal hbound now.timestamp

/-- The request of the call that is on its way first is read as it was, but for the numbers of
instances. -/
theorem decode_first (h : p.Holds x g) (hagreed : p.Agreed) {call : AcceptedCall}
    {later : List AcceptedCall} (hfirst : g.upstream = call :: later) :
    ∃ ws, p.dispatcher.codec.decodeRequest call.body =
        .ok { call.request with arguments := ws } ∧
      Graph.Alike call.request.arguments ws := by
  have hmem : call ∈ g.calls := g.mem_calls_of_upstream (hfirst ▸ List.mem_cons_self)
  have hbody := (h.session.books.sound call hmem).carries
  exact hagreed.announced.decodeRequest_encodeRequest hbody.sendable hbody.voidless hbody.encoded
    (hagreed.lt_size hbody.fits)

/-- The connection reads, if a frame is complete. -/
theorem read (h : p.Holds x g) (hagreed : p.Agreed)
    (hreturns : ∀ r, x.called? p now .read = some r → ∃ body, p.Returns r body) :
    p.Progresses g (x.connection.reader.next.1 = .ok none) (x.step p now .read) := by
  change p.Progresses g _ (x.atConnection p now (.read false))
  change ∀ r, x.connection.response? p.dispatcher now (.read false) = some r → _ at hreturns
  obtain ⟨hlimit, hnext⟩ := h.up.next
  have hread := h.connection.withReader (hlimit.trans h.connection.limit)
  have hstep : x.connection.step p.dispatcher now (.read false) =
      x.connection.read p.dispatcher now false := by
    rw [Connection.step, h.connection.isEnded_eq, if_neg Bool.false_ne_true]
  rcases hanswer : x.connection.reader.next with ⟨answer, reader⟩
  rw [hanswer] at hlimit hnext hread
  rcases hnext with ⟨hnone, hcarries⟩ | ⟨body, rest, hsome, hbodies, hcarries⟩
  · -- no frame is complete, and only the reader has gone on
    obtain rfl : answer = .ok none := hnone
    rw [Connection.read, hanswer] at hstep
    exact .inl ⟨rfl, h.atConnection_idle hstep hlimit hcarries⟩
  · obtain rfl : answer = .ok (some body) := hsome
    obtain ⟨call, later, hfirst, rfl, rfl⟩ := List.map_eq_cons_iff.mp hbodies
    obtain ⟨ws, hdecoded, halike⟩ := h.decode_first hagreed hfirst
    rw [Connection.read, hanswer] at hstep
    dsimp only at hstep
    rw [hdecoded] at hstep
    rw [Connection.response?, Connection.receivedBy, hanswer] at hreturns
    dsimp only at hreturns
    rw [hdecoded] at hreturns
    cases hmatch : call.request.isMatch with
    | false =>
      obtain ⟨r, body, henter, hholds⟩ := hread.refuse hmatch halike hreturns
      have hanswers := hholds.answers ⟨call, none, r, body⟩
        (List.mem_append_right g.downstream (List.mem_singleton_self _))
      exact h.atConnection (hstep.trans henter) (g.moves_refuse hfirst r body) hholds hcarries
        (h.down_write hagreed ⟨call, none, r, body⟩ hanswers.returns)
    | true =>
      have hfresh := h.session.books.fresh hfirst
      obtain ⟨i, work, connection, effects, henter, hreader, hsilent, hstarted, hholds⟩ :=
        hread.accept hmatch halike hfresh now
      have hmoves := g.moves_accept hfirst i work
      rw [← hstarted] at hmoves
      refine h.atConnection (hstep.trans henter) hmoves hholds ?_ ?_
      · rw [hreader]
        exact hcarries
      · rw [hsilent, List.append_nil]
        exact h.down

end Holds

end Partners

end RemoteCall
