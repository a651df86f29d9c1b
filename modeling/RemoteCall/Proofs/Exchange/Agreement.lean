import RemoteCall.Proofs.Exchange.Rest

/-!
# Client and server agree

A call of an exchange gives the value of its handler if its arguments match, its method is bound and
the declared return type takes the value, and otherwise the error for the first of these conditions
that fails. It is so for every run, however the bytes are cut on their way and in whichever order
handlers end. An exchange at rest owes no caller an answer.
-/

namespace RemoteCall

variable {m : Type → Type}

namespace Exchange

/-- **Client and server agree.** The codec is the same on both sides, it carries over what is sent,
the frames keep to the limits, and no call has the id of one that waits. Then every call of a run is
settled once, with a response of which the caller makes what the call comes to, or still waits.
Every handler that starts does so for one call. When the exchange is at rest no call waits and no
handler runs, and as long as what is to come is carried over too, it can come to rest without a new
call. -/
theorem run_agrees (p : Partners m) (hagreed : p.Agreed) (opened : Moment)
    (events : List (Moment × ExchangeEvent)) (hadmits : p.AdmitsRun (start p opened) events) :
    let out := (start p opened).run p events
    ∃ (waiting : List (Nat × Request)) (busy : List (Work m)) (settled : List (SettledCall m)),
      (asked events).Perm (waiting ++ settled.map SettledCall.asked) ∧
      out.2.2.Perm (busy ++ settled.flatMap (·.work.toList)) ∧
      resolutions out.2.1 = settled.map SettledCall.resolution ∧
      (∀ t ∈ settled,
        p.Agrees t.request t.work (RemoteMethod.result t.request .value t.response)) ∧
      (out.1.AtRest → waiting = [] ∧ busy = []) ∧
      ((∀ more, asked more = [] → p.AdmitsRun out.1 more) →
        ∃ more, asked more = [] ∧ (out.1.run p more).1.AtRest) := by
  obtain ⟨g, settled, hrun⟩ := (Partners.Holds.start p opened).run hagreed hadmits
  refine ⟨g.calls.map AcceptedCall.asked, g.works, settled, hrun.conserved, hrun.performed,
    hrun.resolved, hrun.settles, fun hrest => ?_, hrun.holds.exists_atRest hagreed opened⟩
  rw [hrun.holds.eq_empty hrest]
  exact ⟨rfl, rfl⟩

namespace Echoed

/-- A method that gives back its argument. -/
def method : Method Id where
  name := "echo"
  signature := ⟨⟨.scalar .int, true⟩, [⟨.scalar .int, true⟩]⟩
  handler := fun arguments => .returned (arguments.headD .null)

/-- A server with this method alone. -/
def partners : Partners Id where
  settings := .standard
  dispatcher := ⟨⟨[⟨"Mirror", [method]⟩]⟩, .standard, Frame.standardLimit⟩
  outcome := fun i => method.handler i.request.arguments

/-- The moment at which everything happens. -/
def moment : Moment := ⟨0, 0⟩

/-- A request for the method. -/
def request : Request := ⟨7, 0, "Mirror", "echo", method.signature, [.scalar (.int 5)]⟩

/-- A request for a method that is not there. -/
def misnamed : Request := { request with id := 8, method := "ohce" }

/-- Both requests are sent, and arrive in two pieces. The second is answered first, and both
responses come back at once. -/
def events : List (Moment × ExchangeEvent) :=
  [.enter 1 request, .enter 2 misnamed, .queue 1, .queue 2, .write, .write, .arrive 40, .read,
    .arrive 100, .read, .unbound 2, .handled 1, .deliver 200].map (moment, ·)

/-- The classes can be announced, and the limit on frames fits a header. -/
theorem agreed : partners.Agreed := ⟨⟨⟨[], rfl⟩, nofun⟩, by decide⟩

/-- Either request is carried over. -/
theorem carries {r : Request} (hr : r = request ∨ r = misnamed) :
    ∃ body, partners.Carries r body := by
  refine ⟨(CodecSettings.standard.encodeRequest r).toOption.getD [], ?_⟩
  rcases hr with rfl | rfl
  all_goals
    constructor
    case sendable => exact Graph.sendable_of_flat (.inr ⟨_, rfl⟩)
    case voidless => decide
    case encoded => decide +kernel
    case fits => decide +kernel

/-- The response to the first request, and that to the second. -/
def responses : List Response := [.success 7 0 (.scalar (.int 5)), misnamed.lookupRefusal 0]

/-- So is either response. -/
theorem returns {r : Response} (hr : r ∈ responses) : ∃ body, partners.Returns r body := by
  refine ⟨(CodecSettings.standard.encodeResponse r).toOption.getD [], ?_⟩
  simp only [responses, List.mem_cons, List.not_mem_nil, or_false] at hr
  rcases hr with rfl | rfl
  · exact ⟨Graph.sendable_of_flat (.inr ⟨_, rfl⟩), by decide +kernel, by decide +kernel⟩
  · exact ⟨Graph.sendable_of_flat (.inl rfl), by decide +kernel, by decide +kernel⟩

/-- Everything that happens is admitted. -/
theorem admits : partners.AdmitsRun (start partners moment) events := by
  obtain ⟨body, hbody⟩ := carries (.inl rfl)
  obtain ⟨body', hbody'⟩ := carries (.inr rfl)
  refine ⟨.call (by decide +kernel) hbody, .call (by decide +kernel) hbody', ?_⟩
  refine ⟨.silent rfl rfl, .silent rfl rfl, .silent rfl rfl, .silent rfl rfl, .silent rfl rfl, ?_⟩
  refine ⟨.silent rfl (by decide +kernel), .silent rfl rfl, .silent rfl (by decide +kernel), ?_⟩
  refine ⟨.answer rfl fun r hr => ?_, .answer rfl fun r hr => ?_, .silent rfl rfl, trivial⟩
  · have hsecond : responses[1]? = some r := Eq.trans (by decide +kernel) hr
    exact returns (List.mem_of_getElem? hsecond)
  · have hfirst : responses[0]? = some r := Eq.trans (by decide +kernel) hr
    exact returns (List.mem_of_getElem? hfirst)

end Echoed

/-- The first call gives the number that the method was called with, the second an error because no
method is bound under its name. -/
theorem run_agrees_echoed :
    Echoed.partners.Agreed ∧ Echoed.partners.AdmitsRun (start Echoed.partners Echoed.moment)
      Echoed.events ∧
    let out := (start Echoed.partners Echoed.moment).run Echoed.partners Echoed.events
    resolutions out.2.1 = [(2, .ok (Echoed.misnamed.lookupRefusal 0)),
      (1, .ok (.success 7 0 (.scalar (.int 5))))] ∧
    ∃ settled : List (SettledCall Id),
      (asked Echoed.events).Perm (settled.map SettledCall.asked) ∧
      out.2.2.Perm (settled.flatMap (·.work.toList)) ∧
      resolutions out.2.1 = settled.map SettledCall.resolution ∧
      ∀ t ∈ settled, Echoed.partners.Agrees t.request t.work
        (RemoteMethod.result t.request .value t.response) := by
  obtain ⟨waiting, busy, settled, hasked, hperformed, hresolved, hagree, hrest, -⟩ :=
    run_agrees Echoed.partners Echoed.agreed Echoed.moment Echoed.events Echoed.admits
  obtain ⟨rfl, rfl⟩ := hrest
    { unqueued := by decide +kernel
      outbound := by decide +kernel
      upstream := by decide +kernel
      unread := by decide +kernel
      running := by decide +kernel
      downstream := by decide +kernel }
  exact ⟨Echoed.agreed, Echoed.admits, by decide +kernel, settled, hasked, hperformed, hresolved,
    hagree⟩

end Exchange

end RemoteCall
