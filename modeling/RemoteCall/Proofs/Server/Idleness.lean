import RemoteCall.Proofs.Server.AnsweredOnce

/-!
# What is known of an idle connection

Idle connections are found by their activity: a count and a time. Of an open connection the count is
the number of requests that have been admitted and not answered, and the time is that of the last
response that has been written, to whatever request, or of the acceptance before the first response.
An event after which the connection is open leaves both alone, writes a response and sets the time,
or admits a request.
-/

namespace RemoteCall

variable {m : Type → Type}

/-- When the last response was written, or when the connection was accepted if none has been. -/
def lastWritten (opened : Moment) (written : List (Moment × Response)) : Moment :=
  (written.getLast?.map (·.1)).getD opened

namespace Connection

/-- What a run writes, each response at its moment. -/
def writtenAt (d : Dispatcher m) (c : Connection) :
    List (Moment × ConnectionEvent) → List (Moment × Response)
  | [] => []
  | (now, e) :: rest =>
    (responses (c.step d now e).2).map (now, ·) ++ (c.step d now e).1.writtenAt d rest

/-- Those are the responses among all that it does. -/
theorem map_snd_writtenAt (d : Dispatcher m) (c : Connection)
    (events : List (Moment × ConnectionEvent)) :
    (c.writtenAt d events).map (·.2) = responses (c.run d events).2 := by
  induction events generalizing c with
  | nil => rfl
  | cons event rest ih =>
    obtain ⟨now, e⟩ := event
    have hnow : ((responses (c.step d now e).2).map (now, ·)).map (·.2) =
        responses (c.step d now e).2 := by
      rw [List.map_map]
      exact List.map_id _
    rw [writtenAt, List.map_append, hnow, ih, ← responses_append]
    rfl

/-- The requests that a run admits and does not answer, each with its ticket. -/
def unanswered (d : Dispatcher m) (c : Connection) (events : List (Moment × ConnectionEvent)) :
    List (Nat × Request) :=
  (c.admitted d events).filter fun a => a.1 ∉ (c.answered d events).filterMap (·.1)

/-- What an open connection shows of the requests that it has admitted and of its responses. -/
structure Watched (c : Connection) (opened : Moment) (admitted : List (Nat × Request))
    (answered : List (Option Nat × Response)) (written : List (Moment × Response)) : Prop where
  /-- Every admitted request has its response or is running. -/
  settled : (admitted.map (·.1)).Perm (answered.filterMap (·.1) ++ c.running.map (·.ticket))
  last : c.activity.lastResponse = (lastWritten opened written).ticks

variable {d : Dispatcher m} {now opened : Moment} {c : Connection} {e : ConnectionEvent}
  {admitted : List (Nat × Request)} {answered : List (Option Nat × Response)}
  {written : List (Moment × Response)}

namespace Watched

/-- A connection that has just been accepted shows when. -/
theorem start (maxFrameSize : Nat) (opened : Moment) :
    Watched (.start maxFrameSize opened) opened [] [] [] where
  settled := .nil
  last := rfl

/-- A response that has been written is the last one. It answers an invocation that runs no more, or
a request that never ran. -/
theorem respond (h : Watched c opened admitted answered written) (rest : Connection)
    (addressee : Option Nat) {r : Response} (hopen : (rest.respond d now r).1.ending = none)
    (hsettled : (addressee.toList ++ rest.running.map (·.ticket)).Perm
      (c.running.map (·.ticket))) :
    Watched (rest.respond d now r).1 opened admitted
      (answered ++ [addressee].zip (responses (rest.respond d now r).2))
      (written ++ (responses (rest.respond d now r).2).map (now, ·)) := by
  obtain ⟨hafter, hwritten⟩ := respond_of_open hopen
  rw [hafter, hwritten]
  constructor
  case settled =>
    have hone : (([addressee].zip [(d.reply now.timestamp r).1]).filterMap (·.1)) =
        addressee.toList := by
      cases addressee with
      | none => rfl
      | some ticket => rfl
    rw [List.filterMap_append, hone, List.append_assoc]
    exact h.settled.trans (hsettled.symm.append_left _)
  case last =>
    rw [lastWritten, List.map_singleton, List.getLast?_concat]
    rfl

/-- A step that writes nothing and leaves requests and time alone shows nothing new. -/
theorem congr (h : Watched c opened admitted answered written) {c' : Connection}
    (hrunning : c'.running = c.running) (hactivity : c'.activity = c.activity) :
    Watched c' opened admitted answered written where
  settled := hrunning ▸ h.settled
  last := hactivity ▸ h.last

/-- An admitted request runs. -/
theorem join (h : Watched c opened admitted answered written) (reader : FrameReader)
    (r : Request) (isBound : Bool) :
    Watched { ({ c with reader } : Connection).withInFlight (c.inFlight ++ [r.id]) with
      lastTicket := c.lastTicket + 1
      running := c.running ++ [⟨c.lastTicket + 1, r, isBound⟩] } opened
      (admitted ++ [(c.lastTicket + 1, r)]) answered written where
  settled := by
    rw [List.map_append, List.map_append, ← List.append_assoc]
    exact h.settled.append_right [c.lastTicket + 1]
  last := h.last

/-- A step after which the connection is open shows what it has done. -/
theorem step (h : Watched c opened admitted answered written)
    (htickets : (c.running.map (·.ticket)).Nodup) (hended : c.isEnded = false)
    (hopen : (c.step d now e).1.ending = none) :
    Watched (c.step d now e).1 opened (admitted ++ c.admittedBy d e)
      (answered ++ c.answers d now e)
      (written ++ (responses (c.step d now e).2).map (now, ·)) := by
  have hstep : Stepped d now c _ _ _ (c.step d now e) := step_cases hended
  unfold answers
  generalize c.admittedBy d e = entered, c.refusedBy d e = turned, c.addressees d e = addressees,
    c.step d now e = out at hstep hopen ⊢
  cases hstep with
  | @idle c' _ running lastTicket activity ending closing =>
    have hsame : Watched c' opened admitted answered written := h.congr running activity
    simpa [responses] using hsame
  | @refused reader r refusal id =>
    have hread : Watched { c with reader } opened admitted answered written := h.congr rfl rfl
    rw [List.append_nil]
    exact hread.respond { c with reader } none hopen (.refl _)
  | admitted reader r silent unended =>
    rw [silent, List.zip_nil_right, List.map_nil, List.append_nil, List.append_nil]
    exact h.join reader r _
  | @completed ticket i r found id =>
    have hticket : i.ticket = ticket := key_of_find? found
    have hperm : c.running.Perm (i :: c.running.filter (·.ticket != i.ticket)) := by
      rw [hticket]
      exact perm_cons_filter_key htickets found
    have hothers : (i.ticket :: (c.running.filter (·.ticket != i.ticket)).map (·.ticket)).Perm
        (c.running.map (·.ticket)) := (hperm.map Invocation.ticket).symm
    rw [List.append_nil, ← hticket]
    exact h.respond _ (some i.ticket) hopen hothers
  | closed reader => cases hopen
  | failed reader cause => cases hopen

/-- So does a run. -/
theorem run {received : List Request} {sent : List Response}
    (h : Watched c opened admitted answered written) (hbooks : Accounted c received sent)
    {events : List (Moment × ConnectionEvent)} (hopen : (c.run d events).1.ending = none) :
    Watched (c.run d events).1 opened (admitted ++ c.admitted d events)
      (answered ++ c.answered d events) (written ++ c.writtenAt d events) := by
  induction events generalizing c admitted answered written received sent with
  | nil => simpa [Connection.admitted, Connection.answered, writtenAt, Connection.run] using h
  | cons event rest ih =>
    obtain ⟨now, e⟩ := event
    have hended : c.isEnded = false := congrArg Option.isSome (ending_of_run hopen)
    have hrest : ((c.step d now e).1.run d rest).1.ending = none := hopen
    have hmid : (c.step d now e).1.ending = none := ending_of_run hrest
    have hnext := ih (h.step hbooks.tickets hended hmid) (hbooks.step hended hmid) hrest
    rw [List.append_assoc, List.append_assoc, List.append_assoc] at hnext
    rw [Connection.admitted, Connection.answered, writtenAt, hended, if_neg Bool.false_ne_true]
    exact hnext

end Watched

/-- What the activity of a connection tells after a run at whose end it is open. -/
structure Tells (c : Connection) (unanswered : List (Nat × Request)) (last : Moment) : Prop where
  /-- The running invocations are those of the requests without a response. -/
  running : (c.running.map (·.ticket)).Perm (unanswered.map (·.1))
  /-- The ids in flight are those of the running invocations. -/
  ids : c.inFlight = c.running.map (·.request.id)
  inFlight : c.activity.inFlight = unanswered.length
  lastResponse : c.activity.lastResponse = last.ticks

/-- The activity of an open connection counts the requests without a response, and has the time of
the last response. -/
theorem run_tells (d : Dispatcher m) (maxFrameSize : Nat) (opened : Moment)
    (events : List (Moment × ConnectionEvent))
    (hopen : ((start maxFrameSize opened).run d events).1.ending = none) :
    Tells ((start maxFrameSize opened).run d events).1
      ((start maxFrameSize opened).unanswered d events)
      (lastWritten opened ((start maxFrameSize opened).writtenAt d events)) := by
  have hbooks := (Accounted.start maxFrameSize opened).after_run hopen
  have hwatched := (Watched.start maxFrameSize opened).run (.start maxFrameSize opened) hopen
  rw [List.nil_append, List.nil_append, List.nil_append] at hwatched
  have htickets := (run_answeredOnce d maxFrameSize opened events).tickets
  have hrunning : ((((start maxFrameSize opened).run d events).1.running.map (·.ticket))).Perm
      (((start maxFrameSize opened).unanswered d events).map (·.1)) := by
    have hleft := perm_filter_not_mem hwatched.settled htickets
    rw [List.filter_map] at hleft
    exact hleft.symm
  constructor
  case running => exact hrunning
  case ids => exact hbooks.ids
  case inFlight =>
    have hlength := hrunning.length_eq
    rw [List.length_map, List.length_map] at hlength
    rw [hbooks.counted, hbooks.ids, List.length_map, hlength]
  case lastResponse => exact hwatched.last

/-- An event after which the connection is open leaves its activity alone, writes a response, or
admits a request. -/
theorem activity_step (hended : c.isEnded = false) (hopen : (c.step d now e).1.ending = none) :
    ((c.step d now e).1.activity = c.activity ∨
      (c.step d now e).1.activity.lastResponse = now.ticks) ∨
        0 < (c.step d now e).1.activity.inFlight := by
  have hstep : Stepped d now c _ _ _ (c.step d now e) := step_cases hended
  generalize c.admittedBy d e = entered, c.refusedBy d e = turned, c.addressees d e = addressees,
    c.step d now e = out at hstep hopen ⊢
  cases hstep with
  | idle running lastTicket activity => exact .inl (.inl activity)
  | refused reader id =>
    rw [(respond_of_open hopen).1]
    exact .inl (.inr rfl)
  | admitted reader r =>
    have hcount : 0 < (c.inFlight ++ [r.id]).length := by
      rw [List.length_append]
      exact Nat.succ_pos _
    exact .inr hcount
  | completed found id =>
    unfold complete at hopen ⊢
    dsimp only at hopen ⊢
    rw [(respond_of_open hopen).1]
    exact .inl (.inr rfl)
  | closed reader => cases hopen
  | failed reader cause => cases hopen

end Connection

end RemoteCall
