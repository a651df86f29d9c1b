import RemoteCall.Proofs.Server.InFlight

/-!
# What a step of a connection can be

A step of an open connection is one of few things. It leaves the requests alone, refuses the request
that has been read, admits it, answers an invocation, closes the connection, or fails it together
with all that is in flight. What is proved of every step is proved of these.
-/

namespace RemoteCall

variable {m : Type → Type}

/-- Whether an effect is the end of the connection. -/
def ConnectionEffect.isEnd : ConnectionEffect m → Bool
  | ended _ => true
  | _ => false

namespace Connection

/-- The failure that an event brings to an open connection, if it is one that ends the connection:
reading fails, a frame is bad, a request cannot be decoded, or the stream ends within a frame. -/
def failure? (d : Dispatcher m) (c : Connection) : ConnectionEvent → Option CallError
  | .readFailed reason => some (.io reason)
  | .read atEnd =>
    match c.reader.next with
    | (.error cause, _) => some cause
    | (.ok (some body), _) =>
      match d.codec.decodeRequest body with
      | .error e => some (.codec e)
      | .ok _ => none
    | (.ok none, reader) =>
      if atEnd then
        match reader.finish with
        | .broken cause => some cause
        | .clean => none
      else none
  | _ => none

/-- Whether a request that has been read is admitted: it matches its signature, and its id is not in
flight. -/
def admits (c : Connection) (r : Request) : Bool := r.isMatch && !c.inFlight.contains r.id

/-- The request that an event brings to an open connection with the ticket that it gets, if it is
admitted. -/
def admittedBy (d : Dispatcher m) (c : Connection) (e : ConnectionEvent) : List (Nat × Request) :=
  ((c.receivedBy d e).filter c.admits).map fun r => (c.lastTicket + 1, r)

/-- The request that an event brings to an open connection, if it is refused. -/
def refusedBy (d : Dispatcher m) (c : Connection) (e : ConnectionEvent) : List Request :=
  (c.receivedBy d e).filter fun r => !c.admits r

/-- The invocations in the order in which a failure answers them: smaller request ids first. -/
def abandoned (c : Connection) : List Invocation :=
  c.running.mergeSort fun i j => i.request.id ≤ j.request.id

/-- The tickets of the requests that the responses to an event are for, in the order of the
responses. A refusal is for a request that gets no ticket. -/
def addressees (d : Dispatcher m) (c : Connection) (e : ConnectionEvent) : List (Option Nat) :=
  match c.failure? d e, e with
  | some _, _ => c.abandoned.map fun i => some i.ticket
  | none, .handled ticket _ => [some ticket]
  | none, .unbound ticket => [some ticket]
  | none, _ => [none]

/-- What a step of an open connection does, given whom it admits, whom it refuses and whom its
responses are for. -/
inductive Stepped (d : Dispatcher m) (now : Moment) (c : Connection) : List (Nat × Request) →
    List Request → List (Option Nat) → Connection × List (ConnectionEffect m) → Prop
  /-- Nothing is written, and the requests are left alone. -/
  | idle {c' : Connection} {addressees : List (Option Nat)} (running : c'.running = c.running)
      (lastTicket : c'.lastTicket = c.lastTicket) (activity : c'.activity = c.activity)
      (ending : c'.ending = c.ending) (closing : c.isClosing = true → c'.isClosing = true) :
      Stepped d now c [] [] addressees (c', [])
  /-- A request is refused. -/
  | refused (reader : FrameReader) {r : Request} {refusal : Response} (id : refusal.id = r.id) :
      Stepped d now c [] [r] [none] (({ c with reader } : Connection).respond d now refusal)
  /-- A request is admitted under the next ticket. -/
  | admitted (reader : FrameReader) (r : Request) {effects : List (ConnectionEffect m)}
      (silent : responses effects = []) (unended : effects.countP ConnectionEffect.isEnd = 0) :
      Stepped d now c [(c.lastTicket + 1, r)] [] [none]
        ({ ({ c with reader } : Connection).withInFlight (c.inFlight ++ [r.id]) with
          lastTicket := c.lastTicket + 1
          running := c.running ++ [⟨c.lastTicket + 1, r, (d.method? r).isSome⟩] }, effects)
  /-- An invocation is answered. -/
  | completed {ticket : Nat} {i : Invocation} {r : Response}
      (found : c.invocation? ticket = some i) (id : r.id = i.request.id) :
      Stepped d now c [] [] [some ticket] (c.complete d now i r)
  /-- The connection ends without a word. -/
  | closed (reader : FrameReader) {addressees : List (Option Nat)} :
      Stepped d now c [] [] addressees (({ c with reader } : Connection).finish .clean)
  /-- The connection fails. -/
  | failed (reader : FrameReader) (cause : CallError) :
      Stepped d now c [] [] (c.abandoned.map fun i => some i.ticket)
        (({ c with reader } : Connection).fail d now cause)

variable {d : Dispatcher m} {now : Moment} {c : Connection} {e : ConnectionEvent}

/-- A connection that has not ended has no ending. -/
theorem ending_of_open (hopen : c.isEnded = false) : c.ending = none :=
  Option.not_isSome_iff_eq_none.mp (Bool.eq_false_iff.mp hopen)

/-- A handler that starts ends nothing. -/
theorem unended_invoke (ticket : Nat) (f : Option (Method m)) (arguments : List Value) :
    (f.toList.map fun f => ConnectionEffect.invoke ticket f arguments).countP
      ConnectionEffect.isEnd = 0 := by
  cases f with
  | none => rfl
  | some f => rfl

/-- A request that has been read is refused or admitted. -/
theorem stepped_enter (reader : FrameReader) (r : Request) :
    Stepped d now c ((([r] : List Request).filter c.admits).map fun r => (c.lastTicket + 1, r))
      (([r] : List Request).filter fun r => !c.admits r) [none]
      (({ c with reader } : Connection).enter d now r) := by
  unfold enter
  cases hadmits : c.admits r with
  | false =>
    have hnone : ([r] : List Request).filter c.admits = [] := by simp [hadmits]
    have hone : ([r] : List Request).filter (fun r => !c.admits r) = [r] := by simp [hadmits]
    rw [hnone, hone]
    split
    · exact .refused reader rfl
    · rename_i hnot
      have hmatch : r.isMatch = true := by simpa using hnot
      have hid : c.inFlight.contains r.id = true := by simpa [admits, hmatch] using hadmits
      rw [if_pos hid]
      exact .refused reader rfl
  | true =>
    have hone : ([r] : List Request).filter c.admits = [r] := by simp [hadmits]
    have hnone : ([r] : List Request).filter (fun r => !c.admits r) = [] := by simp [hadmits]
    obtain ⟨hmatch, hid⟩ : r.isMatch = true ∧ c.inFlight.contains r.id = false := by
      simpa [admits] using hadmits
    rw [hone, hnone, hmatch, Bool.not_true, if_neg Bool.false_ne_true, hid,
      if_neg Bool.false_ne_true]
    exact .admitted reader r (responses_invoke _ _ _) (unended_invoke _ _ _)

/-- Reading is one of these steps. -/
theorem stepped_read (atEnd : Bool) :
    Stepped d now c (c.admittedBy d (.read atEnd)) (c.refusedBy d (.read atEnd))
      (c.addressees d (.read atEnd)) (c.read d now atEnd) := by
  unfold admittedBy refusedBy addressees receivedBy failure? Connection.read
  generalize c.reader.next = out
  obtain ⟨next, reader⟩ := out
  cases next with
  | error cause => exact .failed reader cause
  | ok frame =>
    cases frame with
    | none =>
      cases atEnd with
      | false => exact .idle rfl rfl rfl rfl id
      | true =>
        dsimp only [if_true]
        cases reader.finish with
        | clean => exact .closed reader
        | broken cause => exact .failed reader cause
    | some body =>
      dsimp only
      cases d.codec.decodeRequest body with
      | error e => exact .failed reader (.codec e)
      | ok r => exact stepped_enter reader r

/-- Every step of an open connection is one of these. -/
theorem step_cases (hended : c.isEnded = false) :
    Stepped d now c (c.admittedBy d e) (c.refusedBy d e) (c.addressees d e) (c.step d now e) := by
  unfold step
  rw [hended, if_neg Bool.false_ne_true]
  cases e with
  | receive bytes => exact .idle rfl rfl rfl rfl id
  | read atEnd => exact stepped_read atEnd
  | readFailed reason => exact .failed c.reader (.io reason)
  | handled ticket outcome =>
    dsimp only
    cases hi : c.invocation? ticket with
    | none => exact .idle rfl rfl rfl rfl id
    | some i =>
      dsimp only
      split
      · exact .completed hi (i.request.report_id _ outcome)
      · exact .idle rfl rfl rfl rfl id
  | unbound ticket =>
    dsimp only
    cases hi : c.invocation? ticket with
    | none => exact .idle rfl rfl rfl rfl id
    | some i =>
      dsimp only
      split
      · exact .idle rfl rfl rfl rfl id
      · exact .completed hi rfl
  | closing => exact .idle rfl rfl rfl rfl fun _ => rfl
  | close =>
    dsimp only
    split
    · exact .closed c.reader
    · exact .idle rfl rfl rfl rfl id

/-- The step that reads a request refuses or admits it; only the reader has gone on before. -/
theorem step_of_received (now : Moment) (hended : c.isEnded = false) {r : Request}
    (h : r ∈ c.receivedBy d e) :
    ∃ reader, c.step d now e = ({ c with reader } : Connection).enter d now r := by
  unfold step
  rw [hended, if_neg Bool.false_ne_true]
  cases e with
  | read atEnd =>
    dsimp only [receivedBy, Connection.read] at h ⊢
    generalize c.reader.next = out at h ⊢
    obtain ⟨next, reader⟩ := out
    refine ⟨reader, ?_⟩
    cases next with
    | error e => cases h
    | ok frame =>
      cases frame with
      | none => cases h
      | some body =>
        dsimp only at h ⊢
        cases hr : d.codec.decodeRequest body with
        | error e =>
          rw [hr] at h
          cases h
        | ok q =>
          rw [hr] at h
          rw [List.mem_singleton.mp h]
  | _ => cases h

/-- A response is written, or the connection ends because it cannot be. -/
theorem respond_cases (d : Dispatcher m) (now : Moment) (c : Connection) (r : Response) :
    (∃ bytes, c.respond d now r = ({ c with activity := c.activity.touch now },
      [.write (d.reply now.timestamp r).1 bytes])) ∨
    ∃ cause, c.respond d now r = c.finish (.failed cause) := by
  unfold respond write
  dsimp only
  cases Frame.encode d.maxFrameSize (d.reply now.timestamp r).2 with
  | error cause => exact .inr ⟨cause, rfl⟩
  | ok bytes => exact .inl ⟨bytes, rfl⟩

/-- A step that brings a failure fails with it; only the reader has gone on before. -/
theorem step_of_failure (now : Moment) (hended : c.isEnded = false) {cause : CallError}
    (h : c.failure? d e = some cause) :
    ∃ reader, c.step d now e = ({ c with reader } : Connection).fail d now cause := by
  unfold step
  rw [hended, if_neg Bool.false_ne_true]
  cases e with
  | readFailed reason =>
    cases h
    exact ⟨c.reader, rfl⟩
  | read atEnd =>
    dsimp only [failure?, Connection.read] at h ⊢
    generalize c.reader.next = out at h ⊢
    obtain ⟨next, reader⟩ := out
    refine ⟨reader, ?_⟩
    cases next with
    | error e =>
      cases h
      rfl
    | ok frame =>
      cases frame with
      | none =>
        cases atEnd with
        | false => cases h
        | true =>
          dsimp only [if_true] at h ⊢
          cases hend : reader.finish with
          | clean =>
            rw [hend] at h
            cases h
          | broken cause =>
            rw [hend] at h
            cases h
            rfl
      | some body =>
        dsimp only at h ⊢
        cases hr : d.codec.decodeRequest body with
        | ok r =>
          rw [hr] at h
          cases h
        | error e =>
          rw [hr] at h
          cases h
          rfl
  | _ => cases h

end Connection

end RemoteCall
