import RemoteCall.Proofs.Client.Lining
import RemoteCall.Proofs.Wire.WholeFrames

/-!
# What a session writes

The bytes that a session writes are whole frames, those of the first requests that were handed to
its writer. So whoever cuts them into pieces and reads them with at least the same limit gets the
encoded requests of accepted calls, in order and with nothing left over. A call that fails at once
adds no byte and leaves every other call as it is.
-/

namespace RemoteCall

/-- What is written, one piece behind the other. -/
def writtenBytes (effects : List SessionEffect) : List UInt8 :=
  effects.flatMap fun
    | .write bytes => bytes
    | _ => []

/-- What is written later stands behind what was written before. -/
theorem writtenBytes_append (effects more : List SessionEffect) :
    writtenBytes (effects ++ more) = writtenBytes effects ++ writtenBytes more :=
  List.flatMap_append

/-- Nothing but a transmission writes bytes. -/
theorem writtenBytes_transmissions (effects : List SessionEffect) :
    writtenBytes (transmissions effects) = writtenBytes effects := by
  induction effects with
  | nil => rfl
  | cons effect rest ih =>
    cases effect with
    | resolve caller outcome => exact ih
    | closed => exact ih
    | write bytes => exact congrArg (bytes ++ ·) ih
    | arm requestId generation => exact ih

/-- The bytes of written requests are the frames of their bodies. -/
theorem writtenBytes_effects (sent : List Outbound) :
    writtenBytes (sent.flatMap Outbound.effects) = Frame.frames (sent.map (·.body)) := by
  induction sent with
  | nil => rfl
  | cons o rest ih => exact congrArg (Frame.wrap o.body ++ ·) ih

/-- The limit of valid settings is a word of 32 bits. -/
theorem ClientSettings.limit_lt {settings : ClientSettings} (h : settings.problem? = none) :
    settings.maxFrameSize < UInt32.size := by
  unfold problem? at h
  split at h
  · cases h
  split at h
  · cases h
  split at h
  · cases h
  split at h
  case isTrue hframe => exact of_decide_eq_true (Bool.and_eq_true_iff.mp hframe).2
  case isFalse => cases h

/-- Whole frames that keep to a limit are read as their bodies, whatever the chunks, and nothing is
left over. -/
theorem FrameReader.run_exhaust_frames {limit : Nat} {bodies : List (List UInt8)}
    (h : Frame.Acceptable limit bodies) {actions : List Action}
    (hreceived : received actions = Frame.frames bodies) :
    ((start limit).run actions).1 ++ ((start limit).run actions).2.exhaust.1 = bodies.map .ok ∧
      ((start limit).run actions).2.exhaust.2 = start limit := by
  have hparse : Frame.parse limit (received actions) = ⟨bodies, .incomplete .header []⟩ :=
    hreceived ▸ Frame.parse_whole h
  obtain ⟨hreached, hsettled⟩ := ((Reached.atStart limit).run actions).exhaust
  rw [List.nil_append, List.nil_append] at hreached
  generalize ((start limit).run actions).1 ++ ((start limit).run actions).2.exhaust.1 = out
    at hreached ⊢
  generalize ((start limit).run actions).2.exhaust.2 = last at hreached hsettled ⊢
  cases hreached with
  | reading hlimit hopen hahead =>
    have hrest := (if_neg hopen).mp hsettled
    have hwhole := hahead []
    rw [List.append_nil, hparse, hrest, Frame.Parsed.behind, List.append_nil] at hwhole
    obtain ⟨rfl, hending⟩ := Frame.Parsed.mk.inj hwhole
    obtain ⟨hstate, hbuffer⟩ := Frame.Ending.incomplete.inj hending
    exact ⟨rfl, by rw [start, ← hlimit, hstate, hbuffer]⟩
  | refused later hrefused =>
    have hwhole := hrefused []
    rw [List.append_nil, hparse] at hwhole
    cases hwhole

namespace Session

variable {s : Session}

/-- An event leaves settings and codec alone and writes the frames of the requests that it sends. -/
theorem posted_step (s : Session) (e : SessionEvent) :
    (s.step e).1.settings = s.settings ∧ (s.step e).1.codec = s.codec ∧
      writtenBytes (s.step e).2 = Frame.frames ((s.sentBy e).map (·.body)) := by
  cases he : e.isExpiry with
  | false =>
    have hposts := s.posts_step he
    refine ⟨hposts.settings, hposts.codec, ?_⟩
    rw [← writtenBytes_transmissions, hposts.transmitted, writtenBytes_effects]
  | true =>
    cases e with
    | expire requestId generation =>
      have hkeeps := keeps_settle (s := s) requestId generation
        (.error (.timeout s.settings.callTimeout.millis))
      refine ⟨hkeeps.settings, hkeeps.codec, ?_⟩
      rw [step, expire, settle]
      split
      · split
        · rfl
        · rfl
      · rfl
    | _ => cases he

/-- So does a run. -/
theorem posted_run (s : Session) (events : List SessionEvent) :
    (s.run events).1.settings = s.settings ∧ (s.run events).1.codec = s.codec ∧
      writtenBytes (s.run events).2 = Frame.frames ((s.along sentBy events).map (·.body)) := by
  induction events generalizing s with
  | nil => exact ⟨rfl, rfl, rfl⟩
  | cons e rest ih =>
    obtain ⟨hsettings, hcodec, hbytes⟩ := s.posted_step e
    obtain ⟨hsettings', hcodec', hbytes'⟩ := ih (s.step e).1
    refine ⟨hsettings'.trans hsettings, hcodec'.trans hcodec, ?_⟩
    rw [run, along, writtenBytes_append, hbytes, hbytes', List.map_append]
    exact List.flatMap_append.symm

/-- A call that is accepted has its request encoded within the limit. -/
theorem fits_of_mem_acceptedBy {e : SessionEvent} {call : AcceptedCall}
    (h : call ∈ s.acceptedBy e) : call.body.length ≤ s.settings.maxFrameSize := by
  have hfor : ∀ caller r, call ∈ s.acceptedFor caller r →
      call.body.length ≤ s.settings.maxFrameSize := by
    intro caller r hcall
    unfold acceptedFor at hcall
    split at hcall
    · rename_i body hbody
      obtain rfl := List.mem_singleton.mp hcall
      exact (prepare_eq_ok_iff.mp hbody).2.1
    · exact absurd hcall List.not_mem_nil
  cases e with
  | call caller r => exact hfor caller r h
  | enter caller r => exact hfor caller r h
  | _ => exact absurd h List.not_mem_nil

/-- So has every call that is accepted in a run. -/
theorem encoded_of_mem_along {events : List SessionEvent} {call : AcceptedCall}
    (h : call ∈ s.along acceptedBy events) : s.codec.encodeRequest call.request = .ok call.body ∧
      call.body.length ≤ s.settings.maxFrameSize ∧ call.slot.requestId = call.request.id := by
  induction events generalizing s with
  | nil => exact absurd h List.not_mem_nil
  | cons e rest ih =>
    rcases List.mem_append.mp h with hnow | hlater
    · obtain ⟨hencoded, hid⟩ := encoded_of_mem_acceptedBy hnow
      exact ⟨hencoded, fits_of_mem_acceptedBy hnow, hid⟩
    · obtain ⟨hsettings, hcodec, -⟩ := s.posted_step e
      have hrest := ih hlater
      rwa [hsettings, hcodec] at hrest

/-- The requests that still wait to be handed over have other generations. -/
theorem unqueued_queue (s : Session) (generation : Nat) :
    (s.queue generation).1.unqueued = s.unqueued.filter (·.generation != generation) := by
  unfold queue
  split
  · rename_i hnone
    exact (filter_key_eq_self hnone).symm
  · dsimp only
    split
    · rfl
    · exact (rests_settle _ _ _ _).unqueued

/-- A call that hands its request over at once leaves none behind. -/
theorem unqueued_call (hnone : s.unqueued = []) (caller : Nat) (r : Request) :
    (s.call caller r).1.unqueued = [] := by
  refine (unqueued_queue (s.enter caller r).1 (s.lastGeneration + 1)).trans ?_
  unfold enter
  split
  · rw [hnone]
    rfl
  · dsimp only
    rw [hnone, List.nil_append, List.filter_singleton, bne_self_eq_false]
    rfl

/-- Where no request waits to be handed over, none does after an event that is not the first part of
a call. -/
theorem unqueued_step (hnone : s.unqueued = []) {e : SessionEvent}
    (he : ∀ caller r, e ≠ .enter caller r) : (s.step e).1.unqueued = [] := by
  cases e with
  | call caller r => exact unqueued_call hnone caller r
  | enter caller r => exact absurd rfl (he caller r)
  | queue generation =>
    rw [step, unqueued_queue, hnone]
    rfl
  | writeNext =>
    rw [step, writeNext]
    split
    · exact hnone
    · exact hnone
  | writeFailed reason =>
    rw [step, writeFailed]
    split
    · exact (((rests_settle s _ _ _).trans (rests_teardown _ _)).unqueued).trans hnone
    · exact hnone
  | stopWriting =>
    rw [step, stopWriting]
    split
    · exact hnone
    · exact hnone
  | receive bytes => exact (rests_receive s bytes).unqueued.trans hnone
  | peerClosed => exact (rests_peerClosed s).unqueued.trans hnone
  | readFailed reason => exact (rests_teardown s _).unqueued.trans hnone
  | expire requestId generation => exact (rests_settle s _ _ _).unqueued.trans hnone
  | close => exact (rests_close s).unqueued.trans hnone
  | drop => exact (rests_teardown s _).unqueued.trans hnone

/-- Calls that hand their requests over at once follow each other. -/
theorem inTurn_of_whole (hnone : s.unqueued = []) {events : List SessionEvent}
    (h : ∀ caller r, .enter caller r ∉ events) : s.InTurn events := by
  induction events generalizing s with
  | nil => exact trivial
  | cons e rest ih =>
    refine ⟨fun _ => hnone, ih (unqueued_step hnone fun caller r he => ?_) fun caller r hmem =>
      h caller r (List.mem_cons_of_mem e hmem)⟩
    exact h caller r (he ▸ List.mem_cons_self)

/-- What holds of the stream that a session writes after a run: the calls that were accepted, the
requests that were handed to the writer, those that were written, and what was done outside. -/
structure Streams (settings : ClientSettings) (codec : CodecSettings) (turn : Prop) (s : Session)
    (accepted : List AcceptedCall) (handed sent : List Outbound) (effects : List SessionEffect) :
    Prop where
  /-- An accepted call has its request encoded within the limit, under the id of its slot. -/
  encoded : ∀ call ∈ accepted, codec.encodeRequest call.request = .ok call.body ∧
    call.body.length ≤ settings.maxFrameSize ∧ call.slot.requestId = call.request.id
  /-- However the written bytes are cut and whenever frames are asked for in between: a reader with
  at least the same limit gives out the bodies of the written requests, and nothing is left over. -/
  reassembled : ∀ limit, settings.maxFrameSize ≤ limit → ∀ actions,
    FrameReader.received actions = writtenBytes effects →
      ((FrameReader.start limit).run actions).1 ++
          ((FrameReader.start limit).run actions).2.exhaust.1 = sent.map (fun o => .ok o.body) ∧
        ((FrameReader.start limit).run actions).2.exhaust.2 = .start limit
  /-- The written requests are the first of those that were handed over, in the same order, and
  these are requests of accepted calls, none of them twice. -/
  ordered : sent <+: handed ∧ handed.Subperm (accepted.map AcceptedCall.outbound)
  /-- If the calls follow each other, the written requests are those of the first accepted calls, in
  the order of the calls. -/
  inTurn : turn → sent <+: accepted.map AcceptedCall.outbound
  /-- While the session is open and no request waits, all of them have been written. -/
  complete : s.isClosed = false → s.unqueued = [] → s.outbound = [] → sent = handed ∧
    sent.Perm (accepted.map AcceptedCall.outbound) ∧
      (turn → sent = accepted.map AcceptedCall.outbound)
  /-- A call that fails at once leaves the session as it is and tells nobody but its caller. -/
  refused : ∀ caller r e, s.Refuses r e →
    s.step (.call caller r) = (s, [.resolve caller (.error e)]) ∧
      s.step (.enter caller r) = (s, [.resolve caller (.error e)])
  /-- Every other call is accepted. -/
  taken : ∀ caller r, (¬ ∃ e, s.Refuses r e) → ∃ body, codec.encodeRequest r = .ok body ∧
    s.acceptedBy (.call caller r) = [⟨r, ⟨r.id, s.lastGeneration + 1, caller⟩, body⟩] ∧
      s.acceptedBy (.enter caller r) = [⟨r, ⟨r.id, s.lastGeneration + 1, caller⟩, body⟩]

/-- Settings under which a session opens are valid, and it opens without requests. -/
theorem eq_start_of_open? {settings : ClientSettings} {codec : CodecSettings}
    (h : open? settings codec = .ok s) : settings.problem? = none ∧ s = start settings codec := by
  unfold open? at h
  split at h
  · cases h
  · rename_i hnone
    exact ⟨hnone, (Except.ok.inj h).symm⟩

/-- A call that fails at once does nothing else, if no request waits under a generation that is
still to come. -/
theorem step_of_refuses (hissued : ∀ o ∈ s.unqueued, o.generation ≤ s.lastGeneration)
    {r : Request} {e : CallError} (h : s.Refuses r e) (caller : Nat) :
    s.step (.call caller r) = (s, [.resolve caller (.error e)]) ∧
      s.step (.enter caller r) = (s, [.resolve caller (.error e)]) := by
  have henter : s.enter caller r = (s, [.resolve caller (.error e)]) := by
    rw [enter, prepare_eq_error_iff.mpr h]
  have hnone : s.unqueued.find? (·.generation == s.lastGeneration + 1) = none := by
    refine List.find?_eq_none.mpr fun o ho hbeq => ?_
    have hle := hissued o ho
    have hsame : o.generation = s.lastGeneration + 1 := beq_iff_eq.mp hbeq
    omega
  have hqueue : s.queue (s.lastGeneration + 1) = (s, []) := by rw [queue, hnone]
  refine ⟨?_, henter⟩
  rw [step, call, henter]
  dsimp only
  rw [hqueue]
  rfl

/-- A call that does not fail at once is accepted. -/
theorem acceptedBy_of_not_refuses {r : Request} (h : ¬ ∃ e, s.Refuses r e) (caller : Nat) :
    ∃ body, s.codec.encodeRequest r = .ok body ∧
      s.acceptedBy (.call caller r) = [⟨r, ⟨r.id, s.lastGeneration + 1, caller⟩, body⟩] ∧
        s.acceptedBy (.enter caller r) = [⟨r, ⟨r.id, s.lastGeneration + 1, caller⟩, body⟩] := by
  cases hprepare : s.prepare r with
  | error e => exact absurd ⟨e, prepare_eq_error_iff.mp hprepare⟩ h
  | ok body =>
    have hfor : s.acceptedFor caller r = [⟨r, ⟨r.id, s.lastGeneration + 1, caller⟩, body⟩] := by
      rw [acceptedFor, hprepare]
    exact ⟨body, encodeRequest_of_prepare hprepare, hfor, hfor⟩

/-- **The stream of a session is made of its accepted calls.** In every run of a session, with calls
under any ids whether they can be sent or not: the bytes that it writes are the frames of the first
requests that were handed over, in order, and of all of them while it is open and has caught up. A
call that fails at once changes nothing. The requests stand in the order of the calls if these
follow each other, and they do if each hands its request over at once. -/
theorem run_streams {settings : ClientSettings} {codec : CodecSettings}
    (hopen : open? settings codec = .ok s) (events : List SessionEvent) :
    Streams settings codec (s.InTurn events) (s.run events).1 (s.along acceptedBy events)
        (s.along handedBy events) (s.along sentBy events) (s.run events).2 ∧
      ((∀ caller r, .enter caller r ∉ events) → s.InTurn events) := by
  obtain ⟨hvalid, rfl⟩ := eq_start_of_open? hopen
  have hlined := (Lined.start ((start settings codec).InTurn events) settings codec).run id
  obtain ⟨hsettings, hcodec, hbytes⟩ := (start settings codec).posted_run events
  simp only [List.nil_append] at hlined
  refine ⟨?_, inTurn_of_whole rfl⟩
  have hencoded : ∀ call ∈ (start settings codec).along acceptedBy events,
      codec.encodeRequest call.request = .ok call.body ∧
        call.body.length ≤ settings.maxFrameSize ∧ call.slot.requestId = call.request.id :=
    fun call hcall => encoded_of_mem_along hcall
  have hfront : (start settings codec).along sentBy events <+:
      (start settings codec).along handedBy events :=
    (List.prefix_append _ _).trans hlined.written
  have hentered : ((start settings codec).along handedBy events).Subperm
      (((start settings codec).along acceptedBy events).map AcceptedCall.outbound) :=
    (List.sublist_append_left _ _).subperm.trans hlined.entered
  constructor
  case encoded => exact hencoded
  case reassembled =>
    intro limit hlimit actions hreceived
    rw [hbytes] at hreceived
    have hacceptable : Frame.Acceptable limit
        (((start settings codec).along sentBy events).map (·.body)) := by
      intro body hbody
      obtain ⟨o, ho, rfl⟩ := List.mem_map.mp hbody
      obtain ⟨call, hcall, rfl⟩ := List.mem_map.mp (hentered.subset (hfront.subset ho))
      have hfits : call.body.length ≤ settings.maxFrameSize := (hencoded call hcall).2.1
      exact ⟨Nat.le_trans hfits hlimit, Nat.lt_of_le_of_lt hfits (ClientSettings.limit_lt hvalid)⟩
    have hread := FrameReader.run_exhaust_frames hacceptable hreceived
    rw [List.map_map] at hread
    exact hread
  case ordered => exact ⟨hfront, hentered⟩
  case inTurn => exact fun hturn => hfront.trans (hlined.inOrder hturn)
  case complete =>
    intro hisOpen hunqueued houtbound
    have hwriting := hlined.isWriting_of_open hisOpen
    obtain ⟨hhanded, hperm⟩ := hlined.complete hwriting
    rw [houtbound, List.append_nil] at hhanded
    rw [hunqueued, List.append_nil] at hperm
    refine ⟨hhanded.symm, hhanded ▸ hperm, fun hturn => ?_⟩
    have hwhole := hlined.whole hturn hwriting
    rwa [hunqueued, List.append_nil, hhanded] at hwhole
  case refused => exact fun caller r e hrefuses => step_of_refuses hlined.issued hrefuses caller
  case taken =>
    intro caller r hnot
    obtain ⟨body, hbody, hcall⟩ := acceptedBy_of_not_refuses hnot caller
    rw [hcodec] at hbody
    exact ⟨body, hbody, hcall⟩

namespace Uneven

/-- No body may be longer than twenty bytes. -/
def settings : ClientSettings := { ClientSettings.standard with maxFrameSize := 20 }

/-- A request of the same id whose body is longer. -/
def longer : Request := { ping with method := "pingAgain" }

/-- Two requests that fit, one that does not between them, and the writer catches up. -/
def events : List SessionEvent :=
  [.call 1 ping, .call 2 longer, .call 3 ping, .writeNext, .writeNext]

/-- A fresh session. -/
def session : Session := start settings .standard

/-- The body of a request that fits. -/
def body : List UInt8 := [27, 7, 0, 5, 83, 116, 111, 114, 101, 4, 112, 105, 110, 103, 0, 0, 0, 0]

end Uneven

/-- The two requests that fit are written in the order of their calls, and a reader that gets the
bytes in any pieces gives out their bodies; the one that is too large fails. -/
theorem run_streams_uneven :
    open? Uneven.settings .standard = .ok Uneven.session ∧
    Uneven.session.along sentBy Uneven.events = [⟨7, 1, Uneven.body⟩, ⟨7, 2, Uneven.body⟩] ∧
    resolved (Uneven.session.run Uneven.events).2 = [2, 1] ∧
    ∀ actions,
      FrameReader.received actions = writtenBytes (Uneven.session.run Uneven.events).2 →
        ((FrameReader.start 20).run actions).1 ++
            ((FrameReader.start 20).run actions).2.exhaust.1 =
          [.ok Uneven.body, .ok Uneven.body] := by
  have hopen : open? Uneven.settings .standard = .ok Uneven.session := rfl
  have hsent : Uneven.session.along sentBy Uneven.events =
      [⟨7, 1, Uneven.body⟩, ⟨7, 2, Uneven.body⟩] := by decide +kernel
  refine ⟨hopen, hsent, by decide +kernel, fun actions hreceived => ?_⟩
  have hread := (run_streams hopen Uneven.events).1.reassembled 20 (Nat.le_refl _) actions hreceived
  rw [hsent] at hread
  exact hread.1

end Session

end RemoteCall
