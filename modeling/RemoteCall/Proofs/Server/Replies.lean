import RemoteCall.Proofs.Server.InPlace
import RemoteCall.Proofs.Server.Refusals

/-!
# What becomes of a response

A response is written as it is, or a failure is written in its place that says what keeps it from
being sent. If that failure does not keep to the limit on frames either, nothing is written, and the
connection ends. So a connection can be lost to a response, and it is lost to nothing else but the
failures that events bring.
-/

namespace RemoteCall

variable {m : Type → Type}

namespace Connection

open Dispatcher

variable {d : Dispatcher m} {now : Moment} {c : Connection} {r : Response} {e : ConnectionEvent}
  {obstacle cause : CallError}

/-- A failure is written in place of a response if it fits. -/
theorem write_of_fits (h : d.obstacle? r = some obstacle)
    (hfits : d.Fits (inPlace now.timestamp r obstacle)) :
    c.write d now r = .ok ({ c with activity := c.activity.touch now },
      [.write (inPlace now.timestamp r obstacle)
        (Frame.wrap (Encoder.bareResponse (inPlace now.timestamp r obstacle)))]) := by
  have hlength := (fits_iff_of_null (r := inPlace now.timestamp r obstacle) rfl).mp hfits
  have hframe := Frame.encode_eq_ok_iff.mpr ⟨hlength, rfl⟩
  rw [write, reply_of_obstacle h]
  dsimp only
  rw [hframe]
  rfl

/-- One that does not fit is refused. -/
theorem write_of_not_fits (h : d.obstacle? r = some obstacle)
    (hnot : ¬ d.Fits (inPlace now.timestamp r obstacle)) :
    c.write d now r = .error (.frameTooLarge
      (Encoder.bareResponse (inPlace now.timestamp r obstacle)).length d.maxFrameSize) := by
  have hlength : d.maxFrameSize <
      (Encoder.bareResponse (inPlace now.timestamp r obstacle)).length :=
    Nat.lt_of_not_le fun hle => hnot ((fits_iff_of_null rfl).mpr hle)
  rw [write, reply_of_obstacle h]
  dsimp only
  rw [Frame.encode, if_pos hlength]
  rfl

/-- A response that cannot be answered at all ends the connection, and only such a one does. -/
theorem ending_respond_iff (hopen : c.ending = none) :
    (c.respond d now r).1.ending = some (.failed cause) ↔
      d.Unanswerable now.timestamp r cause := by
  rw [respond]
  cases hobstacle : d.obstacle? r with
  | none =>
    obtain ⟨body, hsends⟩ := sends_of_no_obstacle hobstacle
    rw [hsends.write_eq]
    constructor
    · intro hending
      exact absurd (hopen.symm.trans hending) (Option.some_ne_none _).symm
    · rintro ⟨obstacle, hsome, -⟩
      exact absurd (hobstacle.symm.trans hsome) (Option.some_ne_none _).symm
  | some obstacle =>
    by_cases hfits : d.Fits (inPlace now.timestamp r obstacle)
    · rw [write_of_fits hobstacle hfits]
      constructor
      · intro hending
        exact absurd (hopen.symm.trans hending) (Option.some_ne_none _).symm
      · rintro ⟨obstacle', hsome, hnot, -⟩
        obtain rfl := Option.some.inj (hobstacle.symm.trans hsome)
        exact absurd hfits hnot
    · rw [write_of_not_fits hobstacle hfits]
      constructor
      · intro hending
        cases hending
        exact ⟨obstacle, hobstacle, hfits, rfl⟩
      · rintro ⟨obstacle', hsome, -, rfl⟩
        obtain rfl := Option.some.inj (hobstacle.symm.trans hsome)
        rfl

/-- The refusal of a request that has been read, if it is refused. -/
def refusal? (now : Moment) (c : Connection) (r : Request) : Option Response :=
  if !r.isMatch then some (r.argumentsRefusal now.timestamp)
  else if c.inFlight.contains r.id then some (r.duplicateRefusal now.timestamp)
  else none

/-- The response that an event calls for at an open connection, if it calls for one. -/
def response? (d : Dispatcher m) (now : Moment) (c : Connection) (e : ConnectionEvent) :
    Option Response :=
  match e with
  | .read _ =>
    match c.receivedBy d e with
    | r :: _ => c.refusal? now r
    | [] => none
  | .handled ticket outcome =>
    match c.invocation? ticket with
    | some i => if i.isBound then some (i.request.report now.timestamp outcome) else none
    | none => none
  | .unbound ticket =>
    match c.invocation? ticket with
    | some i => if i.isBound then none else some (i.request.lookupRefusal now.timestamp)
    | none => none
  | _ => none

/-- A request that is refused gets its refusal. -/
theorem enter_of_refusal {request : Request} (h : c.refusal? now request = some r) :
    c.enter d now request = c.respond d now r := by
  unfold refusal? at h
  rw [enter]
  split at h
  · rename_i hnot
    cases h
    rw [if_pos hnot]
  · rename_i hmatch
    rw [if_neg hmatch]
    split at h
    · rename_i hid
      cases h
      rw [if_pos hid]
    · cases h

/-- A request that is not refused leaves the connection open. -/
theorem ending_enter {request : Request} (h : c.refusal? now request = none) :
    (c.enter d now request).1.ending = c.ending := by
  unfold refusal? at h
  rw [enter]
  split at h
  · cases h
  · rename_i hmatch
    rw [if_neg hmatch]
    split at h
    · cases h
    · rename_i hid
      rw [if_neg hid]
      rfl

/-- The end of a handler, and the lack of one, completes an invocation with the response that it
calls for. If it calls for none, it does nothing. -/
theorem step_settled (hended : c.isEnded = false) {ticket : Nat}
    (he : (∃ outcome, e = .handled ticket outcome) ∨ e = .unbound ticket) :
    (∃ i r, c.response? d now e = some r ∧ c.step d now e = c.complete d now i r) ∨
      (c.response? d now e = none ∧ c.step d now e = (c, [])) := by
  rcases he with ⟨outcome, rfl⟩ | rfl
  · rw [response?, step, hended, if_neg Bool.false_ne_true]
    cases c.invocation? ticket with
    | none => exact .inr ⟨rfl, rfl⟩
    | some i =>
      dsimp only
      cases i.isBound with
      | true => exact .inl ⟨i, _, rfl, rfl⟩
      | false => exact .inr ⟨rfl, rfl⟩
  · rw [response?, step, hended, if_neg Bool.false_ne_true]
    cases c.invocation? ticket with
    | none => exact .inr ⟨rfl, rfl⟩
    | some i =>
      dsimp only
      cases i.isBound with
      | true => exact .inr ⟨rfl, rfl⟩
      | false => exact .inl ⟨i, _, rfl, rfl⟩

/-- The step that calls for a response responds with it, on an open connection. -/
theorem step_of_response (hended : c.isEnded = false) (h : c.response? d now e = some r) :
    ∃ rest : Connection, rest.ending = none ∧ c.step d now e = rest.respond d now r := by
  have hopen := ending_of_open hended
  have hsettled : ∀ ticket, ((∃ outcome, e = .handled ticket outcome) ∨ e = .unbound ticket) →
      ∃ rest : Connection, rest.ending = none ∧ c.step d now e = rest.respond d now r := by
    intro ticket he
    rcases step_settled hended he with ⟨i, r', hr', hstep⟩ | ⟨hnone, -⟩
    · obtain rfl := Option.some.inj (hr'.symm.trans h)
      refine ⟨_, ?_, hstep⟩
      exact hopen
    · exact absurd (hnone.symm.trans h) (Option.some_ne_none _).symm
  cases e with
  | read atEnd =>
    rw [response?] at h
    split at h
    · rename_i request others hreceived
      obtain ⟨reader, hstep⟩ := step_of_received now hended (hreceived ▸ List.mem_cons_self)
      have hrefusal : Connection.refusal? now { c with reader } request = some r := h
      exact ⟨{ c with reader }, hopen, hstep.trans (enter_of_refusal hrefusal)⟩
    · cases h
  | handled ticket outcome => exact hsettled ticket (.inl ⟨outcome, rfl⟩)
  | unbound ticket => exact hsettled ticket (.inr rfl)
  | _ => cases h

/-- An event that calls for a response brings no failure. -/
theorem failure?_of_response (h : c.response? d now e = some r) : c.failure? d e = none := by
  cases e with
  | read atEnd =>
    unfold response? receivedBy at h
    unfold failure?
    generalize c.reader.next = out at h ⊢
    obtain ⟨next, reader⟩ := out
    cases next with
    | error e => cases h
    | ok frame =>
      cases frame with
      | none => cases h
      | some body =>
        dsimp only at h ⊢
        cases hr : d.codec.decodeRequest body with
        | error e =>
          rw [hr] at h
          cases h
        | ok request => rfl
  | readFailed reason => cases h
  | _ => rfl

/-- Reading that neither fails nor calls for a response does not fail the connection. -/
theorem ending_read {atEnd : Bool} (hopen : c.ending = none)
    (hfailure : c.failure? d (.read atEnd) = none)
    (hresponse : c.response? d now (.read atEnd) = none) :
    (c.read d now atEnd).1.ending ≠ some (.failed cause) := by
  unfold failure? at hfailure
  unfold response? receivedBy at hresponse
  unfold Connection.read
  generalize c.reader.next = out at hfailure hresponse ⊢
  obtain ⟨next, reader⟩ := out
  cases next with
  | error e => cases hfailure
  | ok frame =>
    cases frame with
    | none =>
      dsimp only at hfailure ⊢
      split at hfailure
      · rename_i hend
        rw [if_pos hend]
        split at hfailure
        · cases hfailure
        · rename_i hclean
          rw [hclean]
          exact fun hending => nomatch hending
      · rename_i hmore
        rw [if_neg hmore]
        exact fun hending => nomatch hopen.symm.trans hending
    | some body =>
      dsimp only at hfailure hresponse ⊢
      cases hr : d.codec.decodeRequest body with
      | error e =>
        rw [hr] at hfailure
        cases hfailure
      | ok request =>
        rw [hr] at hresponse
        have hrefusal : Connection.refusal? now { c with reader } request = none := hresponse
        rw [ending_enter hrefusal]
        exact fun hending => nomatch hopen.symm.trans hending

/-- A step that neither brings a failure nor calls for a response does not fail the connection. -/
theorem ending_of_quiet (hended : c.isEnded = false) (hfailure : c.failure? d e = none)
    (hresponse : c.response? d now e = none) :
    (c.step d now e).1.ending ≠ some (.failed cause) := by
  have hopen := ending_of_open hended
  have hstays : c.ending ≠ some (.failed cause) := fun hending =>
    nomatch hopen.symm.trans hending
  have hsettled : ∀ ticket, ((∃ outcome, e = .handled ticket outcome) ∨ e = .unbound ticket) →
      (c.step d now e).1.ending ≠ some (.failed cause) := by
    intro ticket he
    rcases step_settled hended he with ⟨i, r, hr, -⟩ | ⟨-, hstep⟩
    · exact absurd (hresponse.symm.trans hr) (Option.some_ne_none _).symm
    · exact hstep ▸ hstays
  cases e with
  | handled ticket outcome => exact hsettled ticket (.inl ⟨outcome, rfl⟩)
  | unbound ticket => exact hsettled ticket (.inr rfl)
  | readFailed reason => cases hfailure
  | receive bytes =>
    rw [step, hended, if_neg Bool.false_ne_true]
    exact hstays
  | read atEnd =>
    rw [step, hended, if_neg Bool.false_ne_true]
    exact ending_read hopen hfailure hresponse
  | closing =>
    rw [step, hended, if_neg Bool.false_ne_true]
    exact hstays
  | close =>
    rw [step, hended, if_neg Bool.false_ne_true]
    split
    · exact fun hending => nomatch hending
    · exact hstays

/-- Why an event fails an open connection: it brings a failure, or it calls for a response that
cannot be answered at all. -/
inductive Fails (d : Dispatcher m) (now : Moment) (c : Connection) (e : ConnectionEvent) :
    CallError → Prop
  | failure {cause : CallError} (h : c.failure? d e = some cause) : Fails d now c e cause
  | response {r : Response} {cause : CallError} (called : c.response? d now e = some r)
      (unanswerable : d.Unanswerable now.timestamp r cause) : Fails d now c e cause

/-- A step fails an open connection for these reasons and no others. -/
theorem ending_step_iff (hended : c.isEnded = false) :
    (c.step d now e).1.ending = some (.failed cause) ↔ Fails d now c e cause := by
  cases hfailure : c.failure? d e with
  | some failure =>
    obtain ⟨reader, hstep⟩ := step_of_failure now hended hfailure
    rw [hstep]
    constructor
    · intro hending
      cases hending
      exact .failure hfailure
    · intro hfails
      cases hfails with
      | failure h =>
        obtain rfl := Option.some.inj (hfailure.symm.trans h)
        rfl
      | response called =>
        have hnone := failure?_of_response called
        exact absurd (hfailure.symm.trans hnone) (Option.some_ne_none _)
  | none =>
    cases hresponse : c.response? d now e with
    | some r =>
      obtain ⟨rest, hopen, hstep⟩ := step_of_response hended hresponse
      rw [hstep, ending_respond_iff hopen]
      constructor
      · exact fun hunanswerable => .response hresponse hunanswerable
      · intro hfails
        cases hfails with
        | failure h => exact absurd (hfailure.symm.trans h) (Option.some_ne_none _).symm
        | response called unanswerable =>
          obtain rfl := Option.some.inj (hresponse.symm.trans called)
          exact unanswerable
    | none =>
      constructor
      · exact fun hending => absurd hending (ending_of_quiet hended hfailure hresponse)
      · intro hfails
        cases hfails with
        | failure h => exact absurd (hfailure.symm.trans h) (Option.some_ne_none _).symm
        | response called => exact absurd (hresponse.symm.trans called) (Option.some_ne_none _).symm

/-- What becomes of a response that a connection has to write. -/
structure Written (d : Dispatcher m) (now : Moment) (c : Connection) (r : Response) : Prop where
  /-- A response without an obstacle is written as it is. -/
  kept : d.obstacle? r = none → ∃ body, d.Sends r body ∧
    c.write d now r =
      .ok ({ c with activity := c.activity.touch now }, [.write r (Frame.wrap body)])
  /-- In place of any other a failure is written that tells the obstacle, if it keeps to the limit;
  the peer reads it. -/
  degraded : ∀ obstacle, d.obstacle? r = some obstacle →
    d.Fits (inPlace now.timestamp r obstacle) →
    c.write d now r = .ok ({ c with activity := c.activity.touch now },
      [.write (inPlace now.timestamp r obstacle)
        (Frame.wrap (Encoder.bareResponse (inPlace now.timestamp r obstacle)))]) ∧
    d.codec.decodeResponse (Encoder.bareResponse (inPlace now.timestamp r obstacle)) =
      .ok (inPlace now.timestamp r obstacle)
  /-- One that does not is refused. -/
  refused : ∀ obstacle, d.obstacle? r = some obstacle →
    ¬ d.Fits (inPlace now.timestamp r obstacle) →
    c.write d now r = .error (.frameTooLarge
      (Encoder.bareResponse (inPlace now.timestamp r obstacle)).length d.maxFrameSize)
  /-- What is handed to the framing has the id of the request and begins with it. -/
  identified : (d.reply now.timestamp r).1.id = r.id ∧
    d.codec.encodeResponse (d.reply now.timestamp r).1 = .ok (d.reply now.timestamp r).2 ∧
    ∃ rest, (d.reply now.timestamp r).2 =
      Encoder.classTag ClassId.response ++ Varint.encode r.id.toNat ++ rest
  /-- With room for 94 bytes every response is written that encodes. -/
  roomy : ∀ body, d.codec.encodeResponse r = .ok body → body.length < UInt64.size →
    94 ≤ d.maxFrameSize → ∃ done, c.write d now r = .ok done
  /-- With room for less than 44 bytes nothing is written for a response that is too long. -/
  narrow : ∀ body, d.codec.encodeResponse r = .ok body → d.maxFrameSize < body.length →
    d.maxFrameSize < 44 → ∃ cause, c.write d now r = .error cause
  /-- A failure is written for a response that does not encode, if there is room for 28 bytes more
  than the words for what is wrong with it. -/
  explained : ∀ e, d.codec.encodeResponse r = .error e →
    (Sized.bytesOf (CallError.codec e).message).length + 28 ≤ d.maxFrameSize →
    ∃ done, c.write d now r = .ok done

/-- Valid settings say what becomes of every response. -/
theorem written {settings : ServerSettings} (hsettings : settings.problem? = none)
    (hlimit : d.maxFrameSize = settings.maxFrameSize) (now : Moment) (c : Connection)
    (r : Response) : Written d now c r := by
  have hword : d.maxFrameSize < UInt32.size := hlimit ▸ settings.limit_lt hsettings
  have hwritten : ∀ obstacle, d.obstacle? r = some obstacle →
      d.Fits (inPlace now.timestamp r obstacle) → ∃ done, c.write d now r = .ok done :=
    fun obstacle hobstacle hfits => ⟨_, write_of_fits hobstacle hfits⟩
  have hkept : d.obstacle? r = none → ∃ body, d.Sends r body ∧ c.write d now r =
      .ok ({ c with activity := c.activity.touch now }, [.write r (Frame.wrap body)]) := by
    intro hnone
    obtain ⟨body, hsends⟩ := sends_of_no_obstacle hnone
    exact ⟨body, hsends, hsends.write_eq now c⟩
  constructor
  case kept => exact hkept
  case degraded =>
    intro obstacle hobstacle hfits
    exact ⟨write_of_fits hobstacle hfits, decodeResponse_of_fits hsettings hlimit rfl hfits⟩
  case refused => exact fun obstacle hobstacle hnot => write_of_not_fits hobstacle hnot
  case identified => exact d.reply_identified now.timestamp r
  case roomy =>
    intro body hbody hlength hroom
    by_cases hfits : body.length ≤ d.maxFrameSize
    · exact ⟨_, (Sends.mk hbody hfits).write_eq now c⟩
    · exact hwritten _ (obstacle_of_long hbody (Nat.lt_of_not_le hfits))
        (fits_inPlace_of_room hlength hword hroom now.timestamp)
  case narrow =>
    intro body hbody hlong hnarrow
    exact ⟨_, write_of_not_fits (obstacle_of_long hbody hlong)
      (not_fits_inPlace_of_narrow hnarrow now.timestamp)⟩
  case explained =>
    intro e he hshort
    exact hwritten _ (obstacle_of_error he) (fits_inPlace_of_short hword hshort now.timestamp)

/-- What becomes of the responses in a run of a connection. -/
structure Replies (d : Dispatcher m) (c : Connection) (events : List (Moment × ConnectionEvent)) :
    Prop where
  /-- What is written for a response, and whether anything can be. -/
  written : ∀ now c r, Written d now c r
  /-- An open connection responds with the response that an event calls for. -/
  responds : ∀ before now e after r, events = before ++ (now, e) :: after →
    (c.run d before).1.ending = none → (c.run d before).1.response? d now e = some r →
    ∃ rest : Connection, rest.ending = none ∧
      (c.run d before).1.step d now e = rest.respond d now r
  /-- An event fails an open connection exactly if it brings a failure, or calls for a response in
  place of which not even a failure keeps to the limit. -/
  fails : ∀ before now e after cause, events = before ++ (now, e) :: after →
    (c.run d before).1.ending = none →
    (((c.run d before).1.step d now e).1.ending = some (.failed cause) ↔
      Fails d now (c.run d before).1 e cause)
  /-- A connection that has failed did so at such an event. -/
  failed : ∀ cause, (c.run d events).1.ending = some (.failed cause) →
    ∃ before now e after, events = before ++ (now, e) :: after ∧
      (c.run d before).1.ending = none ∧ Fails d now (c.run d before).1 e cause

/-- A run that fails an open connection has an event that does. -/
theorem exists_fails {events : List (Moment × ConnectionEvent)} (hopen : c.ending = none)
    (hfailed : (c.run d events).1.ending = some (.failed cause)) :
    ∃ before now e after, events = before ++ (now, e) :: after ∧
      (c.run d before).1.ending = none ∧ Fails d now (c.run d before).1 e cause := by
  induction events generalizing c with
  | nil => exact absurd (hopen.symm.trans hfailed) (Option.some_ne_none _).symm
  | cons event rest ih =>
    obtain ⟨now, e⟩ := event
    have hended : c.isEnded = false := congrArg Option.isSome hopen
    cases hstep : (c.step d now e).1.ending with
    | none =>
      obtain ⟨before, now', e', after, rfl, hbefore, hfails⟩ := ih hstep hfailed
      exact ⟨(now, e) :: before, now', e', after, rfl, hbefore, hfails⟩
    | some how =>
      have hrest : (c.step d now e).1.isEnded = true := congrArg Option.isSome hstep
      have hrun : (c.run d ((now, e) :: rest)).1 = (c.step d now e).1 := by
        change ((c.step d now e).1.run d rest).1 = _
        rw [run_of_ended hrest]
      rw [hrun] at hfailed
      exact ⟨[], now, e, rest, rfl, hopen, (ending_step_iff hended).mp hfailed⟩

/-- **What becomes of a response.** Whatever a server is set to: a response that encodes and keeps
to the limit on frames is written as it is. In place of any other a failure of unknown cause with
the same id is written, if that keeps to the limit; otherwise the connection ends. In every run a
connection fails for no other reason, but for the failures that events bring. -/
theorem run_replies (settings : ServerSettings) (d : Dispatcher m)
    (hsettings : settings.problem? = none) (hlimit : d.maxFrameSize = settings.maxFrameSize)
    (opened : Moment) (events : List (Moment × ConnectionEvent)) :
    Replies d (start d.maxFrameSize opened) events where
  written := Connection.written hsettings hlimit
  responds := fun _ _ _ _ _ _ hopen => step_of_response (congrArg Option.isSome hopen)
  fails := fun _ _ _ _ _ _ hopen => ending_step_iff (congrArg Option.isSome hopen)
  failed := fun _ => exists_fails rfl

namespace Verbose

/-- A result of 41 characters. -/
def text : Value := .scalar (.string "There is nothing in the store at present.")

/-- A method with this result. -/
def method : Method Id where
  name := "list"
  signature := ⟨⟨.any, false⟩, []⟩
  handler := fun _ => .returned text

/-- A server with this method. -/
def dispatcher (limit : Nat) : Dispatcher Id := ⟨⟨[⟨"Store", [method]⟩]⟩, .standard, limit⟩

/-- The moment at which everything happens. -/
def moment : Moment := ⟨0, 0⟩

/-- A request for the method. -/
def request : Request := ⟨7, 0, "Store", method.name, method.signature, []⟩

/-- The request arrives and is read. -/
def before : List (Moment × ConnectionEvent) :=
  [(moment, .receive (Frame.wrap
    ((CodecSettings.standard.encodeRequest request).toOption.getD []))),
    (moment, .read false)]

/-- The handler ends with its result. -/
def handled : ConnectionEvent := .handled 1 (.returned text)

/-- The connection on which the handler runs. -/
def connection (limit : Nat) : Connection :=
  ((start (dispatcher limit).maxFrameSize moment).run (dispatcher limit) before).1

/-- The response with the result. -/
def response : Response := .success 7 0 text

/-- The obstacle of the response, whose body has 48 bytes. -/
def tooLong (limit : Nat) : CallError := .frameTooLarge 48 limit

end Verbose

/-- With room for 47 bytes a failure is written in place of the response, which has 48 bytes. With
room for 40 the connection ends instead, because that failure has 46 bytes itself. -/
theorem run_replies_verbose :
    (∃ rest : Connection, rest.ending = none ∧
      (Verbose.connection 47).step (Verbose.dispatcher 47) Verbose.moment Verbose.handled =
        rest.respond (Verbose.dispatcher 47) Verbose.moment Verbose.response) ∧
    (∀ c : Connection, ∃ done,
      c.write (Verbose.dispatcher 47) Verbose.moment Verbose.response = .ok done) ∧
    ((Verbose.connection 40).step (Verbose.dispatcher 40) Verbose.moment Verbose.handled).1.ending =
      some (.failed (.frameTooLarge 46 40)) := by
  have hroomy := run_replies (Limited.settings 47) (Verbose.dispatcher 47) (by decide) rfl
    Verbose.moment (Verbose.before ++ [(Verbose.moment, Verbose.handled)])
  have hnarrow := run_replies (Limited.settings 40) (Verbose.dispatcher 40) (by decide) rfl
    Verbose.moment (Verbose.before ++ [(Verbose.moment, Verbose.handled)])
  unfold Verbose.connection
  refine ⟨?_, fun c => ?_, ?_⟩
  · exact hroomy.responds Verbose.before Verbose.moment Verbose.handled [] Verbose.response rfl
      (by decide +kernel) (by decide +kernel)
  · have hfits : (Verbose.dispatcher 47).Fits (inPlace 0 Verbose.response (Verbose.tooLong 47)) :=
      (fits_iff_of_null rfl).mpr (by decide +kernel)
    have hwritten := (hroomy.written Verbose.moment c Verbose.response).degraded
      (Verbose.tooLong 47) (by decide +kernel) hfits
    exact ⟨_, hwritten.1⟩
  · have hnot : ¬ (Verbose.dispatcher 40).Fits
        (inPlace 0 Verbose.response (Verbose.tooLong 40)) :=
      fun hfits => absurd ((fits_iff_of_null rfl).mp hfits) (by decide +kernel)
    have hunanswerable : (Verbose.dispatcher 40).Unanswerable 0 Verbose.response
        (.frameTooLarge 46 40) := ⟨Verbose.tooLong 40, by decide +kernel, hnot, by decide +kernel⟩
    exact (hnarrow.fails Verbose.before Verbose.moment Verbose.handled [] (.frameTooLarge 46 40)
      rfl (by decide +kernel)).mpr (.response (by decide +kernel) hunanswerable)

end Connection

end RemoteCall
