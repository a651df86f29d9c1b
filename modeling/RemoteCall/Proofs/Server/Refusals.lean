import RemoteCall.Proofs.Server.Sending
import RemoteCall.Proofs.Server.Steps
import RemoteCall.Server.Settings

/-!
# Refusals on the wire

A request is refused with the status of what is wrong with it, and the peer reads that status, as
long as the refusal keeps to the limit on frames. The refusal spells the request's own names,
signature and arguments, so it can be longer than the request. One that is too long is replaced by a
failure of unknown cause that tells its length; the id of the request is kept.
-/

namespace RemoteCall

variable {m : Type → Type}

/-- The limit of valid settings is a word of 32 bits. -/
theorem ServerSettings.limit_lt (settings : ServerSettings)
    (hsettings : settings.problem? = none) : settings.maxFrameSize < UInt32.size := by
  unfold problem? at hsettings
  split at hsettings
  · cases hsettings
  · split at hsettings
    case isTrue hframe => exact of_decide_eq_true (Bool.and_eq_true_iff.mp hframe).2
    case isFalse => cases hsettings

namespace Connection

/-- An event makes an open connection refuse a request with a status. -/
inductive Refuses (d : Dispatcher m) (now : Moment) (c : Connection) (e : ConnectionEvent) :
    Request → Status → Response → Prop
  /-- The arguments of the request do not match its signature. -/
  | arguments {r : Request} (received : r ∈ c.receivedBy d e) (mismatch : r.isMatch = false) :
      Refuses d now c e r .parameterError (r.argumentsRefusal now.timestamp)
  /-- The id of the request is in flight. -/
  | duplicate {r : Request} (received : r ∈ c.receivedBy d e) (isMatch : r.isMatch = true)
      (inFlight : r.id ∈ c.inFlight) :
      Refuses d now c e r .parameterError (r.duplicateRefusal now.timestamp)
  /-- No method is bound for the request of an invocation. -/
  | lookup {ticket : Nat} {i : Invocation} (event : e = .unbound ticket)
      (found : c.invocation? ticket = some i) (unbound : d.method? i.request = none) :
      Refuses d now c e i.request .lookupError (i.request.lookupRefusal now.timestamp)

/-- Of every running invocation it is known whether a method is bound for its request. -/
def Resolved (d : Dispatcher m) (c : Connection) : Prop :=
  ∀ i ∈ c.running, i.isBound = (d.method? i.request).isSome

variable {d : Dispatcher m} {now : Moment} {c : Connection} {e : ConnectionEvent}

/-- A response leaves the running invocations alone, or ends the connection. -/
theorem Resolved.respond (h : Resolved d c) (r : Response) :
    Resolved d (c.respond d now r).1 := by
  rcases respond_cases d now c r with ⟨bytes, hrespond⟩ | ⟨cause, hrespond⟩
  · rw [hrespond]
    exact h
  · rw [hrespond]
    exact fun _ hi => absurd hi List.not_mem_nil

/-- A step starts invocations of requests that have been looked up, if any. -/
theorem Resolved.step (h : Resolved d c) : Resolved d (c.step d now e).1 := by
  cases hended : c.isEnded with
  | true =>
    rw [step_of_ended hended]
    exact h
  | false =>
    have hstep : Stepped d now c _ _ _ (c.step d now e) := step_cases hended
    generalize c.admittedBy d e = entered, c.refusedBy d e = turned,
      c.addressees d e = addressees, c.step d now e = out at hstep ⊢
    cases hstep with
    | idle running lastTicket => exact fun i hi => h i (running ▸ hi)
    | refused reader id => exact Resolved.respond (c := { c with reader }) h _
    | admitted reader r silent =>
      intro i hi
      rcases List.mem_append.mp hi with hi | hi
      · exact h i hi
      · rw [List.mem_singleton.mp hi]
    | completed found id =>
      exact Resolved.respond (fun j hj => h j (List.mem_of_mem_filter hj)) _
    | closed reader => exact fun _ hi => absurd hi List.not_mem_nil
    | failed reader cause => exact fun _ hi => absurd hi List.not_mem_nil

/-- The same holds after every run. -/
theorem Resolved.run (h : Resolved d c) (events : List (Moment × ConnectionEvent)) :
    Resolved d (c.run d events).1 := by
  induction events generalizing c with
  | nil => exact h
  | cons event rest ih => exact ih h.step

/-- A refusal is for its request, has its status and no payload, and is what the connection
responds. -/
theorem Refuses.respond_eq {r : Request} {status : Status} {refusal : Response}
    (h : Refuses d now c e r status refusal) (hended : c.isEnded = false) (hc : Resolved d c) :
    refusal.id = r.id ∧ refusal.status = status ∧ refusal.payload = .null ∧
      ∃ rest : Connection, c.step d now e = rest.respond d now refusal := by
  cases h with
  | arguments received mismatch =>
    obtain ⟨reader, hstep⟩ := step_of_received now hended received
    refine ⟨rfl, rfl, rfl, { c with reader }, ?_⟩
    rw [hstep, enter, mismatch]
    rfl
  | duplicate received isMatch inFlight =>
    obtain ⟨reader, hstep⟩ := step_of_received now hended received
    refine ⟨rfl, rfl, rfl, { c with reader }, ?_⟩
    rw [hstep, enter, isMatch, Bool.not_true, if_neg Bool.false_ne_true,
      if_pos (List.contains_iff_mem.mpr inFlight)]
  | @lookup ticket i event found unbound =>
    have hbound := hc _ (List.mem_of_find?_eq_some found)
    rw [unbound, Option.isSome_none] at hbound
    refine ⟨rfl, rfl, rfl, ({ c with running := c.running.filter (·.ticket != i.ticket) } :
      Connection).release i.request.id, ?_⟩
    subst event
    unfold step
    rw [hended, if_neg Bool.false_ne_true]
    dsimp only
    rw [found]
    dsimp only
    rw [hbound, if_neg Bool.false_ne_true]
    rfl

/-- Exactly one response is written, in one frame, and the peer reads that response. -/
structure Delivers (d : Dispatcher m) (effects : List (ConnectionEffect m)) (r : Response) :
    Prop where
  written : effects = [.write r (Frame.wrap (Encoder.bareResponse r))]
  read : d.codec.decodeResponse (Encoder.bareResponse r) = .ok r

/-- A body within the limit of valid settings is shorter than a word of 64 bits can count. -/
theorem decodeResponse_of_fits {settings : ServerSettings} (hsettings : settings.problem? = none)
    (hlimit : d.maxFrameSize = settings.maxFrameSize) {r : Response} (h : r.payload = .null)
    (hfits : d.Fits r) : d.codec.decodeResponse (Encoder.bareResponse r) = .ok r := by
  have hlength := (Dispatcher.fits_iff_of_null h).mp hfits
  have hword := settings.limit_lt hsettings
  refine d.codec.decodeResponse_bareResponse h ?_
  have h32 : UInt32.size = 4294967296 := rfl
  have h64 : UInt64.size = 18446744073709551616 := rfl
  omega

/-- **Refusals that fit keep their status.** Whatever a server is set to, and after any run of a
connection: a request whose arguments do not match or whose id is in flight is refused with an error
of the parameters, and one for which no method is bound with an error of the lookup. The peer reads
the refusal, with that status and the id of the request, if it keeps to the limit on frames. In
place of one that does not it reads a failure of unknown cause with the id of the request. -/
theorem run_refusal_status (settings : ServerSettings) (d : Dispatcher m)
    (hsettings : settings.problem? = none) (hlimit : d.maxFrameSize = settings.maxFrameSize)
    (opened now : Moment) (before : List (Moment × ConnectionEvent)) (e : ConnectionEvent)
    (r : Request) (status : Status) (refusal : Response)
    (hopen : ((start d.maxFrameSize opened).run d before).1.ending = none)
    (hrefuses : Refuses d now ((start d.maxFrameSize opened).run d before).1 e r status refusal) :
    refusal.id = r.id ∧ refusal.status = status ∧
    (d.Fits refusal →
      Delivers d (((start d.maxFrameSize opened).run d before).1.step d now e).2 refusal) ∧
    (¬ d.Fits refusal → d.Fits (d.oversized now.timestamp refusal) →
      Delivers d (((start d.maxFrameSize opened).run d before).1.step d now e).2
        (d.oversized now.timestamp refusal)) := by
  have hresolved : Resolved d ((start d.maxFrameSize opened).run d before).1 :=
    Resolved.run (fun _ hi => absurd hi List.not_mem_nil) before
  generalize ((start d.maxFrameSize opened).run d before).1 = c at *
  have hended : c.isEnded = false := by rw [isEnded, hopen]; rfl
  obtain ⟨hid, hstatus, hpayload, rest, hstep⟩ := hrefuses.respond_eq hended hresolved
  refine ⟨hid, hstatus, fun hfits => ?_, fun hnot hfits => ?_⟩
  · exact ⟨hstep ▸ (hfits.sends hpayload).respond_eq now rest,
      decodeResponse_of_fits hsettings hlimit hpayload hfits⟩
  · exact ⟨hstep ▸ Dispatcher.respond_of_not_fits hpayload hnot hfits rest,
      decodeResponse_of_fits hsettings hlimit rfl hfits⟩

namespace Limited

/-- Server settings with a limit on frames. -/
def settings (limit : Nat) : ServerSettings :=
  { ServerSettings.standard with maxFrameSize := limit }

/-- A method without parameters. -/
def method : Method Id where
  name := "countItemsInAllWarehouses"
  signature := ⟨⟨.void, false⟩, []⟩
  handler := fun _ => .returned .null

/-- A server with this method. -/
def dispatcher (limit : Nat) : Dispatcher Id :=
  ⟨⟨[⟨"warehouse.inventory.ItemService", [method]⟩]⟩, .standard, limit⟩

/-- The moment at which everything happens. -/
def moment : Moment := ⟨0, 0⟩

/-- A request with an argument for the method without parameters. -/
def request : Request where
  id := 7
  timestamp := 0
  service := "warehouse.inventory.ItemService"
  method := method.name
  signature := method.signature
  arguments := [.null]

/-- The refusal of the request. -/
def refusal : Response := request.argumentsRefusal 0

/-- The request arrives; its body has 66 bytes. -/
def before : List (Moment × ConnectionEvent) :=
  [(moment, .receive (Frame.wrap
    ((CodecSettings.standard.encodeRequest request).toOption.getD [])))]

/-- The connection with the bytes of the request. -/
def connection (limit : Nat) : Connection := ((start limit moment).run (dispatcher limit) before).1

/-- The next step refuses the request. -/
theorem refuses {limit : Nat}
    (h : (connection limit).receivedBy (dispatcher limit) (.read false) = [request]) :
    Refuses (dispatcher limit) moment (connection limit) (.read false) request .parameterError
      refusal :=
  .arguments (h ▸ List.mem_cons_self) (by decide)

end Limited

/-- With room for 1000 bytes the peer reads the refusal of the request. With room for 100 it reads
a failure of unknown cause, because the refusal has 101 bytes. -/
theorem run_refusal_status_limited :
    Delivers (Limited.dispatcher 1000) ((Limited.connection 1000).step (Limited.dispatcher 1000)
      Limited.moment (.read false)).2 Limited.refusal ∧
    Delivers (Limited.dispatcher 100) ((Limited.connection 100).step (Limited.dispatcher 100)
      Limited.moment (.read false)).2 ((Limited.dispatcher 100).oversized 0 Limited.refusal) := by
  have hroomy := run_refusal_status (Limited.settings 1000) (Limited.dispatcher 1000)
    (by decide) rfl Limited.moment Limited.moment Limited.before (.read false) Limited.request
    .parameterError Limited.refusal (by decide +kernel) (Limited.refuses (by decide +kernel))
  have hnarrow := run_refusal_status (Limited.settings 100) (Limited.dispatcher 100)
    (by decide) rfl Limited.moment Limited.moment Limited.before (.read false) Limited.request
    .parameterError Limited.refusal (by decide +kernel) (Limited.refuses (by decide +kernel))
  refine ⟨hroomy.2.2.1 ?_, hnarrow.2.2.2 ?_ ?_⟩
  · exact (Dispatcher.fits_iff_of_null rfl).mpr (by decide +kernel)
  · exact fun hfits => absurd ((Dispatcher.fits_iff_of_null rfl).mp hfits) (by decide +kernel)
  · exact (Dispatcher.fits_iff_of_null rfl).mpr (by decide +kernel)

/-- A refusal that does not keep its status on the wire: the settings are valid, the arguments do
not match, the request keeps to the limit and its refusal does not. -/
theorem refusal_status_degraded :
    (Limited.settings 100).problem? = none ∧
    (Limited.connection 100).receivedBy (Limited.dispatcher 100) (.read false) =
      [Limited.request] ∧
    Limited.request.isMatch = false ∧
    (responses ((Limited.connection 100).step (Limited.dispatcher 100) Limited.moment
      (.read false)).2).map (fun r => (r.id, r.status)) = [(Limited.request.id, .unknownError)] ∧
    Status.unknownError ≠ Status.parameterError := by
  refine ⟨by decide, by decide +kernel, by decide, by decide +kernel, by decide⟩

end Connection

end RemoteCall
