import RemoteCall.Proofs.Exchange.Stages

/-!
# At the session

What happens at the session's end of an exchange, and where it takes the calls: a new call takes its
slot, its request is handed over and written, and a response that arrives resolves the call that it
is for with what the call comes to. Nothing else resolves a call.
-/

namespace RemoteCall

variable {m : Type → Type}

/-- Where nothing is transmitted nothing is written. -/
theorem bytes_of_transmissions {effects : List SessionEffect} (h : transmissions effects = []) :
    effects.flatMap SessionEffect.bytes = [] := by
  refine List.flatMap_eq_nil_iff.mpr fun e he => ?_
  have hnot := List.filter_eq_nil_iff.mp h e he
  cases e with
  | write bytes => exact absurd rfl hnot
  | _ => rfl

/-- A call that has been resolved with a response, and the handler that has started for it, if there
is one. -/
structure SettledCall (m : Type → Type) where
  caller : Nat
  request : Request
  work : Option (Work m)
  response : Response

namespace SettledCall

/-- The call by its caller and its request. -/
def asked (t : SettledCall m) : Nat × Request := (t.caller, t.request)

/-- How the session resolves the call. -/
def resolution (t : SettledCall m) : Nat × CallOutcome := (t.caller, .ok t.response)

end SettledCall

namespace Partners

/-- What the caller makes of the response is what the call comes to. -/
def Settles (p : Partners m) (t : SettledCall m) : Prop :=
  p.Agrees t.request t.work (RemoteMethod.result t.request .value t.response)

variable {p : Partners m} {s : Session} {g g' : Stages m}

namespace HoldsSession

/-- The session does not see how far its calls have come once they are written. -/
theorem perm (h : p.HoldsSession s g) (hcalls : g'.calls.Perm g.calls)
    (hunqueued : g'.unqueued = g.unqueued) (houtbound : g'.outbound = g.outbound) :
    p.HoldsSession s g' :=
  { h with
    unqueued := hunqueued ▸ h.unqueued
    outbound := houtbound ▸ h.outbound
    books := h.books.perm hcalls }

/-- A session that holds its calls is open. -/
theorem isClosed_eq (h : p.HoldsSession s g) : s.isClosed = false := by
  rw [Session.isClosed, h.isOpen]
  rfl

/-- A request that the codec carries over can be sent. -/
theorem prepare_eq (h : p.HoldsSession s g) {r : Request} {body : List UInt8}
    (hbody : p.Carries r body) : s.prepare r = .ok body := by
  have hlength : ¬ p.settings.maxFrameSize < body.length := Nat.not_lt.mpr hbody.fits.1
  rw [Session.prepare, h.codec, hbody.encoded, h.settings, h.isOpen]
  exact if_neg hlength

/-- A new call takes a slot, and its request waits to be handed over. -/
theorem enter (h : p.HoldsSession s g) {r : Request} {body : List UInt8} (caller : Nat)
    (hfree : s.slot? r.id = none) (hbody : p.Carries r body) :
    p.HoldsSession (s.enter caller r).1 { g with
      unqueued := g.unqueued ++ [⟨r, ⟨r.id, s.lastGeneration + 1, caller⟩, body⟩] } ∧
      (s.enter caller r).2 = [] := by
  have hstep : s.enter caller r = ({ s with
      lastGeneration := s.lastGeneration + 1
      slots := s.slots ++ [⟨r.id, s.lastGeneration + 1, caller⟩]
      unqueued := s.unqueued ++ [⟨r.id, s.lastGeneration + 1, body⟩] }, []) := by
    rw [Session.enter, h.prepare_eq hbody, hfree]
    dsimp only
    rw [Session.removeSlot_of_none hfree]
    rfl
  have hsound : p.Sound ⟨r, ⟨r.id, s.lastGeneration + 1, caller⟩, body⟩ := ⟨hbody, rfl⟩
  have hbooks := h.books.cons hsound hfree rfl
  rw [hstep]
  refine ⟨{ h with unqueued := ?_, books := hbooks.perm (g.perm_enter _) }, rfl⟩
  rw [List.map_append, ← h.unqueued]
  rfl

/-- A request that is handed over waits to be written. -/
theorem queue (h : p.HoldsSession s g) (generation : Nat) :
    (g.unqueued.find? (·.slot.generation == generation) = none ∧
        s.queue generation = (s, [])) ∨
      ∃ call rest, g.unqueued.Perm (call :: rest) ∧
        p.HoldsSession (s.queue generation).1
          { g with unqueued := rest, outbound := g.outbound ++ [call] } ∧
        (s.queue generation).2 = [] := by
  have hfind : s.unqueued.find? (·.generation == generation) =
      (g.unqueued.find? (·.slot.generation == generation)).map AcceptedCall.outbound := by
    rw [h.unqueued, List.find?_map]
    rfl
  cases hcall : g.unqueued.find? (·.slot.generation == generation) with
  | none =>
    rw [hcall] at hfind
    rw [Session.queue, hfind]
    exact .inl ⟨rfl, rfl⟩
  | some call =>
    have hsub : g.unqueued.Sublist g.calls := by
      unfold Stages.calls
      simp only [List.append_assoc]
      exact List.sublist_append_left _ _
    have hperm := perm_cons_filter_key
      ((hsub.map (·.slot.generation)).nodup h.books.generations) hcall
    rw [hcall] at hfind
    have hstep : s.queue generation = ({ s with
        unqueued := s.unqueued.filter (·.generation != generation)
        outbound := s.outbound ++ [call.outbound] }, []) := by
      rw [Session.queue, hfind]
      exact if_pos h.isWriting
    rw [hstep]
    refine .inr ⟨call, g.unqueued.filter (·.slot.generation != generation), hperm,
      { h with
        unqueued := ?_, outbound := ?_, books := h.books.perm (g.moves_queue hperm).calls }, rfl⟩
    · rw [h.unqueued, List.filter_map]
      rfl
    · rw [h.outbound, List.map_append]
      rfl

/-- The request that comes next is written. -/
theorem writeNext (h : p.HoldsSession s g) :
    (g.outbound = [] ∧ s.writeNext = (s, [])) ∨
      ∃ call rest, g.outbound = call :: rest ∧
        p.HoldsSession s.writeNext.1
          { g with outbound := rest, upstream := g.upstream ++ [call] } ∧
        s.writeNext.2 = call.outbound.effects := by
  cases houtbound : g.outbound with
  | nil =>
    refine .inl ⟨rfl, ?_⟩
    rw [Session.writeNext, h.outbound, houtbound]
    rfl
  | cons call rest =>
    have hstep : s.writeNext =
        ({ s with outbound := rest.map AcceptedCall.outbound }, call.outbound.effects) := by
      rw [Session.writeNext, h.outbound, houtbound, h.isWriting]
      rfl
    rw [hstep]
    exact .inr ⟨call, rest, rfl,
      { h with outbound := rfl, books := h.books.perm (g.moves_write houtbound).calls }, rfl⟩

/-- A response that arrives resolves its call with what the call comes to. -/
theorem acceptBody (h : p.HoldsSession s g) (hagreed : p.Agreed) {a : AnsweredCall m}
    {later : List (AnsweredCall m)} (hfirst : g.downstream = a :: later) (ha : p.Answers a) :
    ∃ t : SettledCall m, t.asked = a.call.asked ∧ t.work = a.work ∧ p.Settles t ∧
      p.HoldsSession (s.acceptBody a.body).1 { g with downstream := later } ∧
      resolutions (s.acceptBody a.body).2 = [t.resolution] := by
  obtain ⟨w, hdecoded, halike⟩ := hagreed.announced.decodeResponse_encodeResponse
    ha.returns.sendable ha.returns.encoded (hagreed.lt_size ha.returns.fits)
  have hsplit : g.downstream = [a] ++ later := hfirst
  have hbooks := h.books.perm (g.perm_deliver hsplit).1.symm
  have hslot : s.slot? a.response.id = some a.call.slot := by
    rw [ha.id]
    exact hbooks.find?_eq List.mem_cons_self
  have hstep : s.acceptBody a.body = (s.removeSlot a.response.id,
      [.resolve a.call.slot.caller (.ok { a.response with payload := w })]) := by
    rw [Session.acceptBody, h.isClosed_eq, if_neg Bool.false_ne_true, h.codec, hdecoded]
    dsimp only
    rw [Session.deliver, hslot]
  refine ⟨⟨a.call.slot.caller, a.call.request, a.work, { a.response with payload := w }⟩, rfl, rfl,
    ha.agrees.result halike, ?_, ?_⟩
  · rw [hstep, ha.id]
    exact { h with books := hbooks.tail }
  · rw [hstep]
    rfl

/-- Responses that arrive one after the other resolve their calls. -/
theorem acceptBodies (h : p.HoldsSession s g) (hagreed : p.Agreed)
    {arriving later : List (AnsweredCall m)} (hfirst : g.downstream = arriving ++ later)
    (hall : ∀ a ∈ arriving, p.Answers a) :
    ∃ settled : List (SettledCall m),
      settled.map SettledCall.asked = arriving.map (·.call.asked) ∧
      settled.map SettledCall.work = arriving.map (·.work) ∧
      (∀ t ∈ settled, p.Settles t) ∧
      p.HoldsSession (s.acceptBodies (arriving.map (·.body))).1 { g with downstream := later } ∧
      resolutions (s.acceptBodies (arriving.map (·.body))).2 =
        settled.map SettledCall.resolution := by
  induction arriving generalizing s g with
  | nil =>
    obtain rfl : g.downstream = later := hfirst
    exact ⟨[], rfl, rfl, fun t ht => absurd ht List.not_mem_nil, h, rfl⟩
  | cons a arriving ih =>
    obtain ⟨ha, hrest⟩ := List.forall_mem_cons.mp hall
    obtain ⟨t, hasked, hwork, hsettles, hnext, hresolved⟩ := h.acceptBody hagreed hfirst ha
    obtain ⟨settled, hasked', hwork', hsettles', hlast, hresolved'⟩ := ih hnext rfl hrest
    refine ⟨t :: settled, ?_, ?_, List.forall_mem_cons.mpr ⟨hsettles, hsettles'⟩, hlast, ?_⟩
    · rw [List.map_cons, List.map_cons, hasked, hasked']
    · rw [List.map_cons, List.map_cons, hwork, hwork']
    · rw [List.map_cons, Session.acceptBodies, resolutions_append, hresolved, hresolved']
      rfl

/-- Bytes that arrive bring the first of the responses that are on their way, and write nothing. -/
theorem receive (h : p.HoldsSession s g) (hagreed : p.Agreed) {bytes transit : List UInt8}
    (hdown : s.reader.Carries (bytes ++ transit) (g.downstream.map (·.body)))
    (hall : ∀ a ∈ g.downstream, p.Answers a) :
    ∃ (arriving later : List (AnsweredCall m)) (settled : List (SettledCall m)),
      g.downstream = arriving ++ later ∧
      settled.map SettledCall.asked = arriving.map (·.call.asked) ∧
      settled.map SettledCall.work = arriving.map (·.work) ∧
      (∀ t ∈ settled, p.Settles t) ∧
      p.HoldsSession (s.receive bytes).1 { g with downstream := later } ∧
      (s.receive bytes).1.reader.Carries transit (later.map (·.body)) ∧
      resolutions (s.receive bytes).2 = settled.map SettledCall.resolution := by
  obtain ⟨hfailure, hlimit, hsettled, rest, hbodies, hcarries⟩ := hdown.feed.drain
  obtain ⟨arriving, later, hsplit, hfirst, hrest⟩ := List.map_eq_append_iff.mp hbodies
  have hread : p.HoldsSession { s with reader := (s.reader.feed bytes).drain.2.2 } g :=
    { h with limit := hlimit.trans h.limit, settled := hsettled }
  obtain ⟨settled, hasked, hwork, hsettles, hholds, hresolved⟩ :=
    hread.acceptBodies hagreed hsplit fun a ha =>
      hall a (hsplit ▸ List.mem_append_left later ha)
  have hstep : s.receive bytes =
      Session.acceptBodies { s with reader := (s.reader.feed bytes).drain.2.2 }
        (arriving.map (·.body)) := by
    rw [Session.receive, h.isClosed_eq, if_neg Bool.false_ne_true, hfirst]
    dsimp only
    rw [hfailure]
  refine ⟨arriving, later, settled, hsplit, hasked, hwork, hsettles, hstep ▸ hholds, ?_,
    hstep ▸ hresolved⟩
  rw [hstep, Session.reader_acceptBodies, hrest]
  exact hcarries

end HoldsSession

end Partners

end RemoteCall
