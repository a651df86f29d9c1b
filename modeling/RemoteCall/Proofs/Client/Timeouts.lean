import RemoteCall.Proofs.Client.Deadlines

/-!
# Timeouts

A call fails because of a timeout when the timer ends that was armed behind its own request, and not
before: neither the timer of an earlier call of the same id nor anything else does that. While the
scheduler runs, no call waits beyond the deadline of its request.
-/

namespace RemoteCall

/-- What is done when a request is written, with the moment. -/
def Sent.effects (w : Sent) : List (Nat × SessionEffect) :=
  w.request.effects.map fun effect => (w.moment, effect)

namespace TimedSession

/-- The calls that are accepted at an event. -/
def acceptedBy (t : TimedSession) : TimedEvent → List AcceptedCall
  | .happen e _ => t.session.acceptedBy e
  | .advance _ => []
  | .stopScheduler => []

/-- The requests that are written at an event. -/
def sentBy (t : TimedSession) : TimedEvent → List Sent
  | .happen e _ => (t.session.sentBy e).map (⟨t.scheduler.now, ·⟩)
  | .advance _ => []
  | .stopScheduler => []

/-- What is noted at the events of a run, in order. -/
def along {α : Type} (note : TimedSession → TimedEvent → List α) (t : TimedSession) :
    List TimedEvent → List α
  | [] => []
  | e :: rest => note t e ++ (t.act e).1.along note rest

/-- What is done, without the moment at which it is. -/
theorem map_snd_at (moment : Nat) (effects : List SessionEffect) :
    (effects.map fun effect => (moment, effect)).map (·.2) = effects := by
  rw [List.map_map]
  exact List.map_id _

/-- The books of a session on a clock: the calls that have been accepted, the requests that have
been written, and what has been done outside. -/
structure Ledger (settings : ClientSettings) (codec : CodecSettings) (t : TimedSession)
    (accepted : List AcceptedCall) (sent : List Sent) (log : List (Nat × SessionEffect)) :
    Prop where
  sameSettings : t.session.settings = settings
  sameCodec : t.session.codec = codec
  distinct : t.session.Distinct
  /-- Every call was accepted with its encoded request, for a slot of its own. -/
  encoded : ∀ call ∈ accepted, codec.encodeRequest call.request = .ok call.body ∧
    call.slot.requestId = call.request.id
  generations : accepted.Pairwise (·.slot.generation < ·.slot.generation)
  issued : ∀ call ∈ accepted, call.slot.generation ≤ t.session.lastGeneration
  /-- A waiting call has been accepted. -/
  waiting : ∀ slot ∈ t.session.slots, ∃ call ∈ accepted, call.slot = slot
  /-- A call that waits no more has been resolved. -/
  released : ∀ call ∈ accepted, call.slot ∉ t.session.slots →
    call.slot.caller ∈ resolved (log.map (·.2))
  /-- Each request has been written once, is unwritten or has been dropped. -/
  conserved : (sent.map (·.request) ++ t.session.unwritten).Subperm
    (accepted.map AcceptedCall.outbound)
  timed : Timed settings t sent
  /-- Requests and timers go out as they have been written. -/
  transmitted : log.filter (·.2.isTransmission) = sent.flatMap Sent.effects
  /-- A call that has failed because of a timeout waits no more, and its deadline had come. -/
  timely : ∀ entry ∈ log, ∀ caller millis, entry.2.timeout? = some (caller, millis) →
    millis = settings.callTimeout.millis ∧ ∃ call ∈ accepted, ∃ w ∈ sent,
      w.request = call.outbound ∧ call.slot.caller = caller ∧ call.slot ∉ t.session.slots ∧
        settings.deadline w.moment * 1000000 ≤ entry.1

namespace Ledger

variable {settings : ClientSettings} {codec : CodecSettings} {t : TimedSession}
  {accepted : List AcceptedCall} {sent : List Sent} {log : List (Nat × SessionEffect)}

/-- A session over a fresh connection. -/
theorem start (settings : ClientSettings) (codec : CodecSettings) :
    Ledger settings codec (start settings codec) [] [] [] where
  sameSettings := rfl
  sameCodec := rfl
  distinct := .nil
  encoded := fun _ hcall => absurd hcall List.not_mem_nil
  generations := .nil
  issued := fun _ hcall => absurd hcall List.not_mem_nil
  waiting := fun _ hslot => absurd hslot List.not_mem_nil
  released := fun _ hcall => absurd hcall List.not_mem_nil
  conserved := .refl _
  timed := .start codec
  transmitted := rfl
  timely := fun _ hentry => absurd hentry List.not_mem_nil

/-- Generations tell the accepted calls apart. -/
theorem eq_of_generation (h : Ledger settings codec t accepted sent log)
    {call call' : AcceptedCall} (hcall : call ∈ accepted) (hcall' : call' ∈ accepted)
    (hgeneration : call.slot.generation = call'.slot.generation) : call = call' := by
  have hnodup : (accepted.map (·.slot.generation)).Nodup :=
    List.pairwise_map.mpr (h.generations.imp Nat.ne_of_lt)
  exact List.inj_on_of_nodup_map hnodup hcall hcall' hgeneration

/-- A request that has been written is that of an accepted call. -/
theorem call_of_sent (h : Ledger settings codec t accepted sent log) {w : Sent} (hw : w ∈ sent) :
    ∃ call ∈ accepted, w.request = call.outbound := by
  have hmem := h.conserved.subset (List.mem_append_left _ (List.mem_map_of_mem hw))
  obtain ⟨call, hcall, houtbound⟩ := List.mem_map.mp hmem
  exact ⟨call, hcall, houtbound.symm⟩

/-- The request of a waiting call, if it has been written. -/
theorem call_of_slot (h : Ledger settings codec t accepted sent log) {slot : Slot}
    (hslot : slot ∈ t.session.slots) {w : Sent} (hw : w ∈ sent)
    (hgeneration : slot.generation = w.request.generation) :
    ∃ call ∈ accepted, call.slot = slot ∧ w.request = call.outbound := by
  obtain ⟨call, hcall, rfl⟩ := h.waiting slot hslot
  obtain ⟨call', hcall', hw'⟩ := h.call_of_sent hw
  have hsame : call = call' :=
    h.eq_of_generation hcall hcall' (hgeneration.trans (congrArg Outbound.generation hw'))
  exact ⟨call, hcall, rfl, hsame ▸ hw'⟩

/-- The timer that was armed behind the request of a waiting call is the timer of its slot. -/
theorem timer_of_slot (h : Ledger settings codec t accepted sent log) {slot : Slot}
    (hslot : slot ∈ t.session.slots) {w : Sent} (hw : w ∈ sent)
    (hgeneration : slot.generation = w.request.generation) :
    (w.timer settings).task = slot.timer := by
  obtain ⟨call, -, rfl, hrequest⟩ := h.call_of_slot hslot hw hgeneration
  rw [Sent.timer, hrequest]
  rfl

/-- A timer that ends is that of a request whose deadline has come. -/
theorem exists_of_ending (h : Ledger settings codec t accepted sent log) {slot : Slot}
    {moment : Nat} (hends : slot.timer ∈ t.endingBy moment) :
    ∃ w ∈ sent, slot.generation = w.request.generation ∧
      settings.deadline w.moment * 1000000 ≤ moment := by
  obtain ⟨timer, htimer, htask⟩ := List.mem_map.mp hends
  obtain ⟨hmem, hdue⟩ := List.mem_filter.mp htimer
  obtain ⟨w, hw, rfl⟩ := h.timed.own timer hmem
  refine ⟨w, hw, (congrArg CallTimer.generation htask).symm, ?_⟩
  exact (Nat.le_div_iff_mul_le (by decide)).mp (of_decide_eq_true hdue)

/-- While the scheduler runs, the timer of every waiting call ends whose deadline has come. -/
theorem ending_of_deadline (h : Ledger settings codec t accepted sent log)
    (hrunning : t.scheduler.isRunning = true) {slot : Slot} (hslot : slot ∈ t.session.slots)
    {w : Sent} (hw : w ∈ sent) (hgeneration : slot.generation = w.request.generation)
    {moment : Nat} (hdeadline : settings.deadline w.moment * 1000000 ≤ moment) :
    slot.timer ∈ t.endingBy moment := by
  have hmem := h.timed.armed hrunning w hw ⟨slot, hslot, hgeneration⟩
  have hdue : settings.deadline w.moment ≤ moment / 1000000 :=
    (Nat.le_div_iff_mul_le (by decide)).mpr hdeadline
  rw [← h.timer_of_slot hslot hw hgeneration]
  exact List.mem_map.mpr ⟨_, List.mem_filter.mpr ⟨hmem, decide_eq_true hdue⟩, rfl⟩

/-- What a step of the session leaves for its timers. -/
theorem timed_step (h : Ledger settings codec t accepted sent log)
    (htimeout : 0 < settings.callTimeout.nanos) {e : SessionEvent} (he : e.isExpiry = false) :
    Timed settings (t.step e).1 (sent ++ (t.session.sentBy e).map (⟨t.scheduler.now, ·⟩)) ∧
      (t.step e).1.session = (t.session.step e).1 ∧
      (t.step e).1.scheduler.now = t.scheduler.now := by
  have hposts := t.session.posts_step he
  have haccounts := Session.accounts_step h.distinct e
  have hslots : ∀ slot ∈ (t.session.step e).1.slots, ∀ w ∈ sent,
      slot.generation = w.request.generation → slot ∈ t.session.slots := by
    intro slot hslot w hw hgeneration
    rcases List.mem_append.mp (haccounts.kept.mem hslot) with hold | htaken
    · exact hold
    · obtain ⟨call, hcall, hrequest⟩ := h.call_of_sent hw
      have hnew := (haccounts.fresh slot htaken).1
      have hissued := h.issued call hcall
      rw [hgeneration, hrequest] at hnew
      exact absurd hissued (Nat.not_le_of_lt hnew)
  have htimed := (h.timed.onSession hslots).armAll (hposts.settings.trans h.sameSettings) htimeout
    (t.session.sentBy e)
  rw [t.step_eq e, hposts.transmitted]
  exact htimed

/-- A call that has been accepted and waits no more will not wait again. -/
theorem not_waiting_again (h : Ledger settings codec t accepted sent log) {e : SessionEvent}
    {call : AcceptedCall} (hcall : call ∈ accepted) (hgone : call.slot ∉ t.session.slots) :
    call.slot ∉ (t.session.step e).1.slots := by
  intro hslot
  have haccounts := Session.accounts_step h.distinct e
  rcases List.mem_append.mp (haccounts.kept.mem hslot) with hold | htaken
  · exact hgone hold
  · have hnew := (haccounts.fresh _ htaken).1
    have hissued := h.issued call hcall
    omega

/-- The calls that an event brings have later generations than those before. -/
theorem generations_step (h : Ledger settings codec t accepted sent log) (e : SessionEvent) :
    (accepted ++ t.session.acceptedBy e).Pairwise (·.slot.generation < ·.slot.generation) := by
  have haccounts := Session.accounts_step h.distinct e
  have htaken := t.session.map_slot_acceptedBy e
  refine List.pairwise_append.mpr ⟨h.generations, ?_, fun call hcall call' hcall' => ?_⟩
  · have hordered := haccounts.ordered
    rw [← htaken, List.pairwise_map] at hordered
    exact hordered
  · have hissued := h.issued call hcall
    have hnew := (haccounts.fresh call'.slot (htaken ▸ List.mem_map_of_mem hcall')).1
    omega

/-- A call that waits after an event waited before or is accepted at it. -/
theorem waiting_step (h : Ledger settings codec t accepted sent log) (e : SessionEvent) :
    ∀ slot ∈ (t.session.step e).1.slots,
      ∃ call ∈ accepted ++ t.session.acceptedBy e, call.slot = slot := by
  intro slot hslot
  rcases List.mem_append.mp ((Session.accounts_step h.distinct e).kept.mem hslot) with hold | hnew
  · obtain ⟨call, hcall, hcallslot⟩ := h.waiting slot hold
    exact ⟨call, List.mem_append_left _ hcall, hcallslot⟩
  · obtain ⟨call, hcall, hcallslot⟩ :=
      List.mem_map.mp (t.session.map_slot_acceptedBy e ▸ hnew)
    exact ⟨call, List.mem_append_right _ hcall, hcallslot⟩

/-- A call that waits no more after an event has been resolved before or is resolved at it. -/
theorem released_step (h : Ledger settings codec t accepted sent log) (e : SessionEvent) :
    ∀ call ∈ accepted ++ t.session.acceptedBy e, call.slot ∉ (t.session.step e).1.slots →
      call.slot.caller ∈ resolved (log.map (·.2)) ++ resolved (t.session.step e).2 := by
  intro call hcall hgone
  have hnow : call.slot ∈ t.session.slots ++ t.session.takenBy e →
      call.slot.caller ∈ resolved (log.map (·.2)) ++ resolved (t.session.step e).2 := fun hmem =>
    List.mem_append_right _ ((Session.accounts_step h.distinct e).released call.slot hmem hgone)
  rcases List.mem_append.mp hcall with hcall | hcall
  · by_cases hold : call.slot ∈ t.session.slots
    · exact hnow (List.mem_append_left _ hold)
    · exact List.mem_append_left _ (h.released call hcall hold)
  · exact hnow (List.mem_append_right _
      (t.session.map_slot_acceptedBy e ▸ List.mem_map_of_mem hcall))

/-- What is written at an event was unwritten or belongs to a call that the event brings. -/
theorem conserved_step (h : Ledger settings codec t accepted sent log) {e : SessionEvent}
    (he : e.isExpiry = false) :
    ((sent ++ (t.session.sentBy e).map (Sent.mk t.scheduler.now)).map (·.request) ++
      (t.session.step e).1.unwritten).Subperm
        ((accepted ++ t.session.acceptedBy e).map AcceptedCall.outbound) := by
  have hold := (List.subperm_append_right ((t.session.acceptedBy e).map AcceptedCall.outbound)).mpr
    h.conserved
  have hnew := (List.subperm_append_left (sent.map (·.request))).mpr
    (t.session.posts_step he).conserved
  rw [← List.append_assoc, ← List.append_assoc] at hnew
  rw [List.map_append, List.map_append, List.map_map]
  change (sent.map (·.request) ++ (t.session.sentBy e).map id ++ _).Subperm _
  rw [List.map_id]
  exact hnew.trans hold

/-- What is transmitted at an event are the requests that are written at it. -/
theorem transmitted_step (h : Ledger settings codec t accepted sent log) {e : SessionEvent}
    (he : e.isExpiry = false) :
    (log ++ (t.session.step e).2.map fun effect => (t.scheduler.now, effect)).filter
      (·.2.isTransmission) =
        (sent ++ (t.session.sentBy e).map (Sent.mk t.scheduler.now)).flatMap Sent.effects := by
  have hnew : ((t.session.step e).2.map fun effect => (t.scheduler.now, effect)).filter
      (·.2.isTransmission) = (transmissions (t.session.step e).2).map (t.scheduler.now, ·) :=
    List.filter_map
  rw [List.filter_append, h.transmitted, List.flatMap_append, hnew,
    (t.session.posts_step he).transmitted, List.map_flatMap, List.flatMap_map]
  rfl

/-- A step of the session keeps the books. -/
theorem happen (h : Ledger settings codec t accepted sent log)
    (htimeout : 0 < settings.callTimeout.nanos) {e : SessionEvent} (he : e.isExpiry = false) :
    Ledger settings codec (t.step e).1 (accepted ++ t.session.acceptedBy e)
      (sent ++ (t.session.sentBy e).map (⟨t.scheduler.now, ·⟩))
      (log ++ (t.step e).2.map fun effect => ((t.step e).1.scheduler.now, effect)) := by
  have hposts := t.session.posts_step he
  have haccounts := Session.accounts_step h.distinct e
  have heffects : (t.step e).2 = (t.session.step e).2 := rfl
  obtain ⟨htimed, hsession, hnow⟩ := h.timed_step htimeout he
  rw [heffects, hnow]
  constructor
  case sameSettings => rw [hsession, hposts.settings, h.sameSettings]
  case sameCodec => rw [hsession, hposts.codec, h.sameCodec]
  case distinct => exact hsession ▸ haccounts.distinct
  case encoded =>
    intro call hcall
    rcases List.mem_append.mp hcall with hcall | hcall
    · exact h.encoded call hcall
    · exact h.sameCodec ▸ Session.encoded_of_mem_acceptedBy hcall
  case generations => exact h.generations_step e
  case issued =>
    intro call hcall
    rw [hsession]
    rcases List.mem_append.mp hcall with hcall | hcall
    · exact Nat.le_trans (h.issued call hcall) haccounts.grows
    · have hslot := List.mem_map_of_mem (f := AcceptedCall.slot) hcall
      exact (haccounts.fresh call.slot (t.session.map_slot_acceptedBy e ▸ hslot)).2
  case waiting => exact hsession ▸ h.waiting_step e
  case released =>
    rw [hsession, List.map_append, resolved_append, map_snd_at]
    exact h.released_step e
  case conserved => exact hsession ▸ h.conserved_step he
  case timed => exact htimed
  case transmitted => exact h.transmitted_step he
  case timely =>
    intro entry hentry caller millis htimeout
    rcases List.mem_append.mp hentry with hentry | hentry
    · obtain ⟨hmillis, call, hcall, w, hw, hrequest, hcaller, hgone, hdeadline⟩ :=
        h.timely entry hentry caller millis htimeout
      exact ⟨hmillis, call, List.mem_append_left _ hcall, w, List.mem_append_left _ hw, hrequest,
        hcaller, hsession ▸ h.not_waiting_again hcall hgone, hdeadline⟩
    · obtain ⟨effect, heffect, rfl⟩ := List.mem_map.mp hentry
      have hmem : (caller, millis) ∈ timeouts (t.session.step e).2 :=
        List.mem_filterMap.mpr ⟨effect, heffect, htimeout⟩
      rw [hposts.untimed] at hmem
      exact absurd hmem List.not_mem_nil

/-- After the clock has moved, the calls wait whose timers have not ended. -/
theorem mem_slots_advance (h : Ledger settings codec t accepted sent log) (nanos : Nat)
    {slot : Slot} : slot ∈ (t.advance nanos).1.session.slots ↔
      slot ∈ t.session.slots ∧ slot.timer ∉ t.endingBy (t.scheduler.now + nanos) := by
  rw [(advance_eq h.distinct h.timed.queue nanos).1]
  exact List.mem_filter.trans (and_congr_right fun _ => decide_eq_true_iff)

/-- When the clock moves, the calls fail whose timers end. -/
theorem mem_effects_advance (h : Ledger settings codec t accepted sent log) (nanos : Nat)
    {effect : SessionEffect} : effect ∈ (t.advance nanos).2 ↔ ∃ slot ∈ t.session.slots,
      slot.timer ∈ t.endingBy (t.scheduler.now + nanos) ∧ t.session.timedOut slot = effect := by
  rw [(advance_eq h.distinct h.timed.queue nanos).2.mem_iff, List.mem_map]
  refine exists_congr fun slot => ?_
  rw [List.mem_filter, decide_eq_true_iff, and_assoc]

/-- A call that waits no more after the clock has moved has been resolved before or fails now. -/
theorem released_advance (h : Ledger settings codec t accepted sent log) (nanos : Nat) :
    ∀ call ∈ accepted, call.slot ∉ (t.advance nanos).1.session.slots →
      call.slot.caller ∈ resolved (log.map (·.2)) ++ resolved (t.advance nanos).2 := by
  intro call hcall hgone
  by_cases hold : call.slot ∈ t.session.slots
  · have hends : call.slot.timer ∈ t.endingBy (t.scheduler.now + nanos) :=
      Decidable.of_not_not fun hnot => hgone ((h.mem_slots_advance nanos).mpr ⟨hold, hnot⟩)
    have hmem := (h.mem_effects_advance nanos).mpr ⟨call.slot, hold, hends, rfl⟩
    have hresolution : (call.slot.caller, Except.error (CallError.timeout
        t.session.settings.callTimeout.millis)) ∈ resolutions (t.advance nanos).2 :=
      List.mem_filterMap.mpr ⟨_, hmem, rfl⟩
    exact List.mem_append_right _ (List.mem_map.mpr ⟨_, hresolution, rfl⟩)
  · exact List.mem_append_left _ (h.released call hcall hold)

/-- When the clock moves, nothing is transmitted. -/
theorem transmitted_advance (h : Ledger settings codec t accepted sent log) (nanos moment : Nat) :
    ((t.advance nanos).2.map fun effect => (moment, effect)).filter (·.2.isTransmission) = [] := by
  refine List.filter_eq_nil_iff.mpr fun entry hentry htransmission => ?_
  obtain ⟨effect, heffect, rfl⟩ := List.mem_map.mp hentry
  obtain ⟨slot, -, -, rfl⟩ := (h.mem_effects_advance nanos).mp heffect
  cases htransmission

/-- The clock keeps the books. -/
theorem advance (h : Ledger settings codec t accepted sent log) (nanos : Nat) :
    Ledger settings codec (t.advance nanos).1 accepted sent
      (log ++ (t.advance nanos).2.map fun effect =>
        ((t.advance nanos).1.scheduler.now, effect)) := by
  have hlater := (advance_eq h.distinct h.timed.queue nanos).1
  have hnow : (t.advance nanos).1.scheduler.now = t.scheduler.now + nanos := by rw [hlater]; rfl
  rw [hnow]
  constructor
  case sameSettings => rw [hlater]; exact h.sameSettings
  case sameCodec => rw [hlater]; exact h.sameCodec
  case distinct => rw [hlater]; exact h.distinct.sublist (List.filter_sublist.map _)
  case encoded => exact h.encoded
  case generations => exact h.generations
  case issued => rw [hlater]; exact h.issued
  case waiting => exact fun slot hslot => h.waiting slot ((h.mem_slots_advance nanos).mp hslot).1
  case released =>
    rw [List.map_append, resolved_append, map_snd_at]
    exact h.released_advance nanos
  case conserved => rw [hlater]; exact h.conserved
  case timed =>
    have hkept : ∀ slot ∈ (t.advance nanos).1.session.slots, slot ∈ t.session.slots ∧
        ∀ w ∈ sent, slot.generation = w.request.generation →
          (w.timer settings).task ∉ t.endingBy (t.scheduler.now + nanos) := by
      intro slot hslot
      obtain ⟨hold, hnot⟩ := (h.mem_slots_advance nanos).mp hslot
      exact ⟨hold, fun w hw hgeneration => h.timer_of_slot hold hw hgeneration ▸ hnot⟩
    have htimed := h.timed.advance nanos hkept
    rw [hlater] at htimed ⊢
    exact htimed
  case transmitted =>
    rw [List.filter_append, h.transmitted_advance, List.append_nil, h.transmitted]
  case timely =>
    intro entry hentry caller millis htimeout
    rcases List.mem_append.mp hentry with hentry | hentry
    · obtain ⟨hmillis, call, hcall, w, hw, hrequest, hcaller, hgone, hdeadline⟩ :=
        h.timely entry hentry caller millis htimeout
      exact ⟨hmillis, call, hcall, w, hw, hrequest, hcaller,
        fun hslot => hgone ((h.mem_slots_advance nanos).mp hslot).1, hdeadline⟩
    · obtain ⟨effect, heffect, rfl⟩ := List.mem_map.mp hentry
      obtain ⟨slot, hslot, hends, rfl⟩ := (h.mem_effects_advance nanos).mp heffect
      cases htimeout
      obtain ⟨w, hw, hgeneration, hdeadline⟩ := h.exists_of_ending hends
      obtain ⟨call, hcall, rfl, hrequest⟩ := h.call_of_slot hslot hw hgeneration
      exact ⟨congrArg (·.callTimeout.millis) h.sameSettings, call, hcall, w, hw, hrequest, rfl,
        fun hwaits => ((h.mem_slots_advance nanos).mp hwaits).2 hends, hdeadline⟩

/-- A scheduler that stops keeps the books. -/
theorem stop (h : Ledger settings codec t accepted sent log) :
    Ledger settings codec t.stopScheduler accepted sent log :=
  { h with timed := .stopped rfl rfl }

/-- Every event keeps the books. -/
theorem act (h : Ledger settings codec t accepted sent log)
    (htimeout : 0 < settings.callTimeout.nanos) (e : TimedEvent) :
    Ledger settings codec (t.act e).1 (accepted ++ t.acceptedBy e) (sent ++ t.sentBy e)
      (log ++ (t.act e).2.map fun effect => ((t.act e).1.scheduler.now, effect)) := by
  cases e with
  | happen e external => exact h.happen htimeout external
  | advance nanos =>
    rw [acceptedBy, sentBy, List.append_nil, List.append_nil]
    exact h.advance nanos
  | stopScheduler =>
    rw [acceptedBy, sentBy, List.append_nil, List.append_nil]
    exact (List.append_nil log).symm ▸ h.stop

/-- Every run keeps the books. -/
theorem run (h : Ledger settings codec t accepted sent log)
    (htimeout : 0 < settings.callTimeout.nanos) (events : List TimedEvent) :
    Ledger settings codec (t.run events).1 (accepted ++ t.along TimedSession.acceptedBy events)
      (sent ++ t.along TimedSession.sentBy events) (log ++ (t.run events).2) := by
  induction events generalizing t accepted sent log with
  | nil =>
    rw [along, along, List.append_nil, List.append_nil]
    exact (List.append_nil log).symm ▸ h
  | cons e rest ih =>
    have hrest := ih (h.act htimeout e)
    rw [List.append_assoc, List.append_assoc, List.append_assoc] at hrest
    exact hrest

end Ledger

/-- Whether the request of a slot has been written and its deadline has come by a moment. -/
def isOverdue (settings : ClientSettings) (sent : List Sent) (moment : Nat) (slot : Slot) : Bool :=
  sent.any fun w => w.request.generation = slot.generation ∧
    settings.deadline w.moment * 1000000 ≤ moment

/-- While the scheduler runs, the timers of the waiting calls end at their deadlines. -/
theorem Ledger.isOverdue_eq {settings : ClientSettings} {codec : CodecSettings} {t : TimedSession}
    {accepted : List AcceptedCall} {sent : List Sent} {log : List (Nat × SessionEffect)}
    (h : Ledger settings codec t accepted sent log) (hrunning : t.scheduler.isRunning = true)
    {slot : Slot} (hslot : slot ∈ t.session.slots) (moment : Nat) :
    decide (slot.timer ∈ t.endingBy moment) = isOverdue settings sent moment slot := by
  rw [Bool.eq_iff_iff, decide_eq_true_iff, isOverdue, List.any_eq_true]
  constructor
  · intro hends
    obtain ⟨w, hw, hgeneration, hdeadline⟩ := h.exists_of_ending hends
    exact ⟨w, hw, decide_eq_true ⟨hgeneration.symm, hdeadline⟩⟩
  · rintro ⟨w, hw, hoverdue⟩
    obtain ⟨hgeneration, hdeadline⟩ := of_decide_eq_true hoverdue
    exact h.ending_of_deadline hrunning hslot hw hgeneration.symm hdeadline

/-- What holds of the timeouts of a session after a run from its start: the calls that have been
accepted, the requests that have been written, and what has been done outside at which moment. -/
structure TimesOut (settings : ClientSettings) (codec : CodecSettings) (t : TimedSession)
    (accepted : List AcceptedCall) (sent : List Sent) (log : List (Nat × SessionEffect)) :
    Prop where
  /-- A call is accepted with its encoded request and takes the slot of its request id. -/
  encoded : ∀ call ∈ accepted, codec.encodeRequest call.request = .ok call.body ∧
    call.slot.requestId = call.request.id
  /-- Each takes its slot under a generation of its own. -/
  generations : accepted.Pairwise (·.slot.generation < ·.slot.generation)
  /-- What waits has been accepted. -/
  waiting : ∀ slot ∈ t.session.slots, ∃ call ∈ accepted, call.slot = slot
  /-- What has been accepted and waits no more has been resolved. -/
  released : ∀ call ∈ accepted, call.slot ∉ t.session.slots →
    call.slot.caller ∈ resolved (log.map (·.2))
  /-- The requests that have been written are those of accepted calls, each at most once. -/
  once : (sent.map (·.request)).Subperm (accepted.map AcceptedCall.outbound)
  /-- Nothing else has been written, and no timer has been armed but right behind a request, at the
  moment at which it was written. -/
  transmitted : log.filter (·.2.isTransmission) = sent.flatMap Sent.effects
  /-- A call that has failed because of a timeout had its own request written, at least the call
  timeout before, and it waits no more. -/
  timely : ∀ moment caller millis, (moment, .resolve caller (.error (.timeout millis))) ∈ log →
    millis = settings.callTimeout.millis ∧ ∃ call ∈ accepted, ∃ w ∈ sent,
      w.request = call.outbound ∧ call.slot.caller = caller ∧ call.slot ∉ t.session.slots ∧
        settings.deadline w.moment * 1000000 ≤ moment ∧
          w.moment + settings.callTimeout.nanos ≤ moment
  /-- Nothing but the clock makes a call fail because of a timeout. -/
  external : ∀ e : SessionEvent, e.isExpiry = false → timeouts (t.step e).2 = []
  /-- A timer of another generation does nothing to the call that waits under its request id. -/
  stale : ∀ slot ∈ t.session.slots, ∀ generation, generation ≠ slot.generation →
    t.session.expire slot.requestId generation = (t.session, [])
  /-- While the scheduler runs, no call waits when its deadline has come. -/
  punctual : t.scheduler.isRunning = true → ∀ slot ∈ t.session.slots, ∀ w ∈ sent,
    slot.generation = w.request.generation →
      t.scheduler.now < settings.deadline w.moment * 1000000
  /-- A clock that moves makes exactly those waiting calls fail whose deadlines come, each because
  of a timeout, and changes nothing else about the session. -/
  expires : t.scheduler.isRunning = true → ∀ nanos,
    (t.advance nanos).1.session = { t.session with
      slots := t.session.slots.filter fun slot =>
        !(isOverdue settings sent (t.scheduler.now + nanos) slot) } ∧
    (t.advance nanos).2.Perm ((t.session.slots.filter
      (isOverdue settings sent (t.scheduler.now + nanos))).map fun slot =>
        .resolve slot.caller (.error (.timeout settings.callTimeout.millis)))

/-- The books say so. -/
theorem Ledger.timesOut {settings : ClientSettings} {codec : CodecSettings} {t : TimedSession}
    {accepted : List AcceptedCall} {sent : List Sent} {log : List (Nat × SessionEffect)}
    (h : Ledger settings codec t accepted sent log) :
    TimesOut settings codec t accepted sent log := by
  constructor
  case encoded => exact h.encoded
  case generations => exact h.generations
  case waiting => exact h.waiting
  case released => exact h.released
  case once => exact (List.sublist_append_left _ _).subperm.trans h.conserved
  case transmitted => exact h.transmitted
  case timely =>
    intro moment caller millis hentry
    obtain ⟨hmillis, call, hcall, w, hw, hrequest, hcaller, hgone, hdeadline⟩ :=
      h.timely _ hentry caller millis rfl
    exact ⟨hmillis, call, hcall, w, hw, hrequest, hcaller, hgone, hdeadline,
      Nat.le_trans (settings.le_deadline w.moment) hdeadline⟩
  case external => exact fun e he => (t.session.posts_step he).untimed
  case stale =>
    intro slot hslot generation hother
    rw [Session.expire, Session.settle, h.distinct.slot?_of_mem hslot]
    exact if_neg hother.symm
  case punctual =>
    intro hrunning slot hslot w hw hgeneration
    have hmem := h.timed.armed hrunning w hw ⟨slot, hslot, hgeneration⟩
    exact (Nat.div_lt_iff_lt_mul (by decide)).mp (h.timed.queue.later _ hmem)
  case expires =>
    intro hrunning nanos
    obtain ⟨hlater, heffects⟩ := advance_eq h.distinct h.timed.queue nanos
    have hoverdue : ∀ slot ∈ t.session.slots,
        decide (slot.timer ∈ t.endingBy (t.scheduler.now + nanos)) =
          isOverdue settings sent (t.scheduler.now + nanos) slot :=
      fun slot hslot => h.isOverdue_eq hrunning hslot _
    constructor
    · rw [hlater]
      refine congrArg (fun slots => { t.session with slots })
        (List.filter_congr fun slot hslot => ?_)
      rw [decide_not, hoverdue slot hslot]
    · have htimedOut : t.session.timedOut = fun slot =>
          .resolve slot.caller (.error (.timeout settings.callTimeout.millis)) := by
        funext slot
        rw [Session.timedOut, h.sameSettings]
      rw [List.filter_congr hoverdue, htimedOut] at heffects
      exact heffects

/-- **Timeouts hit only their own call.** In every run of a session on a clock, with calls under
any ids, responses and a clock that moves at will: a call fails because of a timeout only at or
after the deadline of its own request, and while the scheduler runs it does so when that deadline
comes, unless it has been resolved before. -/
theorem run_timesOut (settings : ClientSettings) (codec : CodecSettings)
    (hsettings : settings.problem? = none) (events : List TimedEvent) :
    TimesOut settings codec ((start settings codec).run events).1
      ((start settings codec).along acceptedBy events)
      ((start settings codec).along sentBy events) ((start settings codec).run events).2 := by
  have hledger := (Ledger.start settings codec).run (settings.callTimeout_pos hsettings) events
  exact hledger.timesOut

namespace Reused

/-- Two calls of one request id: the first is answered after two seconds, the second made then, and
the clock moves on beyond the deadline of the first. -/
def events : List TimedEvent :=
  [.happen (.call 1 Session.ping) rfl, .happen .writeNext rfl, .advance 2000000000,
    .happen (.receive (Frame.wrap [28, 7, 0, 0, 0, 0])) rfl,
    .happen (.call 2 Session.ping) rfl, .happen .writeNext rfl, .advance 3500000000]

/-- The session after that. -/
def session : TimedSession := ((start .standard .standard).run events).1

/-- The requests of the two calls. -/
def sent : List Sent := (start .standard .standard).along sentBy events

end Reused

/-- The timer of the first call does nothing to the second, which still waits. Two seconds later the
second call fails because of its own. -/
theorem run_timesOut_reused :
    Reused.session.session.slots = [⟨7, 2, 2⟩] ∧
    (Reused.session.advance 2000000000).1.session.slots = [] ∧
    (Reused.session.advance 2000000000).2.Perm [.resolve 2 (.error (.timeout 5000))] := by
  have htimesOut := run_timesOut .standard .standard (by decide) Reused.events
  have hslots : Reused.session.session.slots = [⟨7, 2, 2⟩] := by decide +kernel
  have hoverdue : isOverdue .standard Reused.sent (Reused.session.scheduler.now + 2000000000)
      ⟨7, 2, 2⟩ = true := by decide +kernel
  obtain ⟨hsession, heffects⟩ := htimesOut.expires (by decide +kernel) 2000000000
  have hleft : (Reused.session.advance 2000000000).1.session.slots =
      Reused.session.session.slots.filter fun slot => !(isOverdue .standard Reused.sent
        (Reused.session.scheduler.now + 2000000000) slot) := congrArg Session.slots hsession
  have hfailed : (Reused.session.advance 2000000000).2.Perm
      ((Reused.session.session.slots.filter (isOverdue .standard Reused.sent
        (Reused.session.scheduler.now + 2000000000))).map fun slot =>
          .resolve slot.caller (.error (.timeout 5000))) := heffects
  refine ⟨hslots, ?_, ?_⟩
  · rw [hleft, hslots, List.filter_cons, hoverdue]
    rfl
  · rw [hslots, List.filter_cons, hoverdue] at hfailed
    exact hfailed

end TimedSession

end RemoteCall
