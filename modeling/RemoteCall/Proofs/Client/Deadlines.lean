import RemoteCall.Proofs.Client.Expiry

/-!
# Deadlines

The timer of a request is armed when the request is written and ends a timeout later, rounded up to
a millisecond. While the scheduler runs, every request whose call still waits has its timer in the
queue. No timer in the queue belongs to anything but a request that has been written, and none is
due yet.
-/

namespace RemoteCall

/-- The first millisecond is not before the point of the clock, and less than one behind it. -/
theorem Scheduler.roundUp_bounds (nanos : Nat) :
    nanos ≤ roundUp nanos * 1000000 ∧ roundUp nanos * 1000000 < nanos + 1000000 := by
  unfold roundUp
  omega

namespace ClientSettings

variable {settings : ClientSettings}

/-- The millisecond at which the timer of a request ends that is written at a moment. -/
def deadline (settings : ClientSettings) (moment : Nat) : Nat :=
  Scheduler.roundUp (moment + settings.callTimeout.nanos)

/-- The call timeout has passed by then. -/
theorem le_deadline (settings : ClientSettings) (moment : Nat) :
    moment + settings.callTimeout.nanos ≤ settings.deadline moment * 1000000 :=
  (Scheduler.roundUp_bounds _).1

/-- Valid settings do not end a call at once. -/
theorem callTimeout_pos (h : settings.problem? = none) : 0 < settings.callTimeout.nanos := by
  refine Nat.pos_of_ne_zero fun hzero => ?_
  have hempty : settings.callTimeout.isZero = true := beq_iff_eq.mpr hzero
  rw [problem?, hempty] at h
  split at h
  · cases h
  · cases h

/-- The deadline is a later millisecond. -/
theorem lt_deadline (h : 0 < settings.callTimeout.nanos) (moment : Nat) :
    moment / 1000000 < settings.deadline moment := by
  have hle := settings.le_deadline moment
  omega

end ClientSettings

/-- A request that has been written, with the moment at which it was. -/
structure Sent where
  moment : Nat
  request : Outbound

/-- The timer that is armed for a request. -/
def Sent.timer (settings : ClientSettings) (w : Sent) : Timer CallTimer :=
  ⟨settings.deadline w.moment, ⟨w.request.requestId, w.request.generation⟩⟩

namespace TimedSession

/-- What the queue of a session knows of the requests that have been written. -/
structure Timed (settings : ClientSettings) (t : TimedSession) (sent : List Sent) : Prop where
  queue : t.scheduler.queue.Waiting (t.scheduler.now / 1000000)
  /-- Every timer is that of a request. -/
  own : ∀ timer ∈ t.scheduler.queue.timers, ∃ w ∈ sent, timer = w.timer settings
  /-- While the scheduler runs, the timer of every request is there whose call waits. -/
  armed : t.scheduler.isRunning = true → ∀ w ∈ sent,
    (∃ slot ∈ t.session.slots, slot.generation = w.request.generation) →
      w.timer settings ∈ t.scheduler.queue.timers

variable {settings : ClientSettings} {t : TimedSession} {sent : List Sent}

/-- A session over a fresh connection has written nothing. -/
theorem Timed.start (codec : CodecSettings) : Timed settings (start settings codec) [] where
  queue := .empty _
  own := fun _ htimer => absurd htimer List.not_mem_nil
  armed := fun _ _ hw => absurd hw List.not_mem_nil

/-- Other calls may wait if their requests have not been written. -/
theorem Timed.onSession (h : Timed settings t sent) {s : Session}
    (hslots : ∀ slot ∈ s.slots, ∀ w ∈ sent, slot.generation = w.request.generation →
      slot ∈ t.session.slots) : Timed settings { t with session := s } sent where
  queue := h.queue
  own := h.own
  armed := fun hrunning w hw ⟨slot, hslot, hgeneration⟩ =>
    h.armed hrunning w hw ⟨slot, hslots slot hslot w hw hgeneration, hgeneration⟩

/-- A scheduler without timers may stand for any requests, if it has stopped. -/
theorem Timed.stopped (hrunning : t.scheduler.isRunning = false)
    (hqueue : t.scheduler.queue = .empty) : Timed settings t sent where
  queue := hqueue ▸ .empty _
  own := fun timer htimer => by
    rw [hqueue] at htimer
    exact absurd htimer List.not_mem_nil
  armed := fun h => absurd (hrunning.symm.trans h) Bool.false_ne_true

/-- The timer of a request that is written now. -/
theorem Timed.arm (h : Timed settings t sent) (hsettings : t.session.settings = settings)
    (htimeout : 0 < settings.callTimeout.nanos) (o : Outbound) :
    Timed settings (t.arm (.arm o.requestId o.generation))
      (sent ++ [⟨t.scheduler.now, o⟩]) := by
  have hlater := ClientSettings.lt_deadline htimeout t.scheduler.now
  unfold TimedSession.arm Scheduler.schedule
  rw [hsettings]
  dsimp only
  split
  · rename_i hrunning
    split
    · rename_i queue hinsert
      obtain ⟨hqueue, hperm⟩ := h.queue.insert hlater hinsert
      refine ⟨hqueue, fun timer htimer => ?_, fun _ w hw hslot => ?_⟩
      · rcases List.mem_cons.mp (hperm.mem_iff.mp htimer) with rfl | hold
        · exact ⟨⟨t.scheduler.now, o⟩, List.mem_append_right _ List.mem_cons_self, rfl⟩
        · obtain ⟨w, hw, htimer⟩ := h.own timer hold
          exact ⟨w, List.mem_append_left _ hw, htimer⟩
      · refine hperm.mem_iff.mpr (List.mem_cons.mpr ?_)
        rcases List.mem_append.mp hw with hw | hw
        · exact .inr (h.armed hrunning w hw hslot)
        · obtain rfl := List.mem_singleton.mp hw
          exact .inl rfl
    · exact .stopped rfl rfl
  · rename_i hstopped
    refine ⟨h.queue, fun timer htimer => ?_, fun hrunning => absurd hrunning hstopped⟩
    obtain ⟨w, hw, htimer⟩ := h.own timer htimer
    exact ⟨w, List.mem_append_left _ hw, htimer⟩

/-- A timer that is armed changes neither the session nor the clock. -/
theorem arm_keeps (t : TimedSession) (effect : SessionEffect) :
    (t.arm effect).session = t.session ∧ (t.arm effect).scheduler.now = t.scheduler.now := by
  cases effect with
  | arm requestId generation =>
    unfold TimedSession.arm Scheduler.schedule
    dsimp only
    split
    · split
      · exact ⟨rfl, rfl⟩
      · exact ⟨rfl, rfl⟩
    · exact ⟨rfl, rfl⟩
  | _ => exact ⟨rfl, rfl⟩

/-- The timers of requests that are written now. -/
theorem Timed.armAll (h : Timed settings t sent) (hsettings : t.session.settings = settings)
    (htimeout : 0 < settings.callTimeout.nanos) (requests : List Outbound) :
    Timed settings ((requests.flatMap Outbound.effects).foldl TimedSession.arm t)
        (sent ++ requests.map (⟨t.scheduler.now, ·⟩)) ∧
      ((requests.flatMap Outbound.effects).foldl TimedSession.arm t).session = t.session ∧
      ((requests.flatMap Outbound.effects).foldl TimedSession.arm t).scheduler.now =
        t.scheduler.now := by
  induction requests generalizing t sent with
  | nil =>
    rw [List.map_nil, List.append_nil]
    exact ⟨h, rfl, rfl⟩
  | cons o rest ih =>
    obtain ⟨hsession, hnow⟩ := t.arm_keeps (.arm o.requestId o.generation)
    have hrest := ih (h.arm hsettings htimeout o) (hsession ▸ hsettings)
    rw [hsession, hnow, List.append_assoc] at hrest
    exact hrest

/-- The clock moves on. -/
theorem Timed.advance (h : Timed settings t sent) (nanos : Nat) {s : Session}
    (hslots : ∀ slot ∈ s.slots, slot ∈ t.session.slots ∧
      ∀ w ∈ sent, slot.generation = w.request.generation →
        (w.timer settings).task ∉ t.endingBy (t.scheduler.now + nanos)) :
    Timed settings ⟨s, (t.scheduler.advance nanos).2⟩ sent := by
  have hle : t.scheduler.now / 1000000 ≤ (t.scheduler.now + nanos) / 1000000 :=
    Nat.div_le_div_right (Nat.le_add_right _ _)
  obtain ⟨-, htimers, hwaiting⟩ := h.queue.poll hle
  refine ⟨hwaiting, fun timer htimer => ?_, fun hrunning w hw ⟨slot, hslot, hgeneration⟩ => ?_⟩
  · have hmem : timer ∈ t.scheduler.queue.timers := List.mem_of_mem_filter (htimers ▸ htimer)
    exact h.own timer hmem
  · obtain ⟨hold, hends⟩ := hslots slot hslot
    have hmem := h.armed hrunning w hw ⟨slot, hold, hgeneration⟩
    refine htimers ▸ List.mem_filter.mpr ⟨hmem, decide_eq_true ?_⟩
    refine Nat.lt_of_not_le fun hdue => hends w hw hgeneration ?_
    exact List.mem_map.mpr ⟨_, List.mem_filter.mpr ⟨hmem, decide_eq_true hdue⟩, rfl⟩

end TimedSession

end RemoteCall
