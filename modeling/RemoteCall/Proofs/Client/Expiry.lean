import RemoteCall.Proofs.Client.TimerOrder
import RemoteCall.Proofs.Client.Transmission

/-!
# The end of timers

When timers end, exactly those calls fail that wait under the id and the generation of one of them.
Generations tell the calls of one id apart, so a timer that has outlived its call does nothing. When
the clock moves, the timers end that are due by then.
-/

namespace RemoteCall

/-- The timer of the call of a slot. -/
def Slot.timer (slot : Slot) : CallTimer := ⟨slot.requestId, slot.generation⟩

namespace Session

/-- The call of a slot fails because of a timeout. -/
def timedOut (s : Session) (slot : Slot) : SessionEffect :=
  .resolve slot.caller (.error (.timeout s.settings.callTimeout.millis))

variable {s : Session}

/-- No two waiting calls have one request id. -/
theorem Distinct.eq_of_requestId (h : s.Distinct) {slot slot' : Slot} (hslot : slot ∈ s.slots)
    (hslot' : slot' ∈ s.slots) (hid : slot.requestId = slot'.requestId) : slot = slot' :=
  List.inj_on_of_nodup_map h hslot hslot' hid

/-- A waiting call is found under its request id. -/
theorem Distinct.slot?_of_mem (h : s.Distinct) {slot : Slot} (hslot : slot ∈ s.slots) :
    s.slot? slot.requestId = some slot := by
  cases hfound : s.slot? slot.requestId with
  | none => exact absurd (beq_self_eq_true _) (List.find?_eq_none.mp hfound slot hslot)
  | some slot' =>
    have hid : slot'.requestId = slot.requestId := key_of_find? hfound
    rw [h.eq_of_requestId (List.mem_of_find?_eq_some hfound) hslot hid]

/-- The waiting call of a timer is that of its id and generation. -/
theorem filter_timer_eq (h : s.Distinct) {slot : Slot} (hslot : slot ∈ s.slots) :
    s.slots.filter (·.timer = slot.timer) = [slot] := by
  have hcongr : s.slots.filter (·.timer = slot.timer) = s.slots.filter (· == slot) := by
    refine List.filter_congr fun slot' hslot' => ?_
    by_cases he : slot' = slot
    · rw [he, decide_eq_true rfl, beq_self_eq_true]
    · have hne : slot'.timer ≠ slot.timer := fun htimer =>
        he (h.eq_of_requestId hslot' hslot (congrArg CallTimer.requestId htimer))
      rw [decide_eq_false hne, beq_false_of_ne he]
  have hnodup : s.slots.Nodup := List.Nodup.of_map _ h
  rw [hcongr, List.filter_beq, hnodup.count, if_pos hslot]
  rfl

/-- The end of a timer fails the waiting call of its id and generation, if there is one, and leaves
the others. -/
theorem expire_eq (h : s.Distinct) (timer : CallTimer) :
    s.expire timer.requestId timer.generation =
      ({ s with slots := s.slots.filter (·.timer ≠ timer) },
        (s.slots.filter (·.timer = timer)).map s.timedOut) := by
  by_cases hwaits : ∃ slot ∈ s.slots, slot.timer = timer
  · obtain ⟨slot, hslot, rfl⟩ := hwaits
    have hfound := h.slot?_of_mem hslot
    have hothers : s.slots.filter (·.requestId != slot.requestId) =
        s.slots.filter (·.timer ≠ slot.timer) := by
      refine List.filter_congr fun slot' hslot' => ?_
      by_cases hid : slot'.requestId = slot.requestId
      · obtain rfl := h.eq_of_requestId hslot' hslot hid
        rw [bne_self_eq_false, decide_eq_false (not_not_intro rfl)]
      · have hne : slot'.timer ≠ slot.timer := fun htimer =>
          hid (congrArg CallTimer.requestId htimer)
        rw [bne_iff_ne.mpr hid, decide_eq_true hne]
    rw [filter_timer_eq h hslot, ← hothers]
    dsimp only [Slot.timer]
    rw [expire, settle, hfound]
    exact if_pos rfl
  · have hnone : s.slots.filter (·.timer = timer) = [] :=
      List.filter_eq_nil_iff.mpr fun slot hslot htimer =>
        hwaits ⟨slot, hslot, of_decide_eq_true htimer⟩
    have hall : s.slots.filter (·.timer ≠ timer) = s.slots :=
      List.filter_eq_self.mpr fun slot hslot =>
        decide_eq_true fun htimer => hwaits ⟨slot, hslot, htimer⟩
    rw [hnone, hall, expire, settle]
    split
    · rename_i slot hslot
      have hid : slot.requestId = timer.requestId := key_of_find? hslot
      refine if_neg fun hgeneration => hwaits ⟨slot, List.mem_of_find?_eq_some hslot, ?_⟩
      rw [Slot.timer, hid, hgeneration]
    · rfl

/-- The ends of timers. -/
def ends (timers : List CallTimer) : List SessionEvent :=
  timers.map fun timer => .expire timer.requestId timer.generation

/-- The calls that fail because of the first of several timers and those that fail because of the
others are all that fail. -/
theorem perm_filter_timers (slots : List Slot) (timer : CallTimer) (rest : List CallTimer) :
    (slots.filter (·.timer = timer) ++
      (slots.filter (·.timer ≠ timer)).filter (·.timer ∈ rest)).Perm
        (slots.filter (·.timer ∈ timer :: rest)) := by
  have hfirst : (slots.filter (·.timer ∈ timer :: rest)).filter (·.timer = timer) =
      slots.filter (·.timer = timer) := by
    rw [List.filter_filter]
    refine List.filter_congr fun slot _ => ?_
    rw [← Bool.decide_and]
    exact decide_eq_decide.mpr ⟨And.left, fun he => ⟨he, List.mem_cons.mpr (.inl he)⟩⟩
  have hothers : (slots.filter (·.timer ∈ timer :: rest)).filter
      (fun slot => !decide (slot.timer = timer)) =
        (slots.filter (·.timer ≠ timer)).filter (·.timer ∈ rest) := by
    rw [List.filter_filter, List.filter_filter]
    refine List.filter_congr fun slot _ => ?_
    rw [← decide_not, ← Bool.decide_and, ← Bool.decide_and]
    refine decide_eq_decide.mpr ⟨fun ⟨hne, hmem⟩ => ?_, fun ⟨hmem, hne⟩ => ?_⟩
    · exact ⟨(List.mem_cons.mp hmem).resolve_left hne, hne⟩
    · exact ⟨hne, List.mem_cons_of_mem timer hmem⟩
  rw [← hfirst, ← hothers]
  exact List.filter_append_perm _ _

/-- The calls that wait for none of several timers wait neither for the first nor for the others. -/
theorem filter_other_timers (slots : List Slot) (timer : CallTimer) (rest : List CallTimer) :
    (slots.filter (·.timer ≠ timer)).filter (·.timer ∉ rest) =
      slots.filter (·.timer ∉ timer :: rest) := by
  rw [List.filter_filter]
  refine List.filter_congr fun slot _ => ?_
  rw [← Bool.decide_and]
  refine decide_eq_decide.mpr ⟨fun ⟨hmem, hne⟩ hcons => ?_, fun hnot => ⟨?_, ?_⟩⟩
  · exact hmem ((List.mem_cons.mp hcons).resolve_left hne)
  · exact fun hmem => hnot (List.mem_cons_of_mem timer hmem)
  · exact fun he => hnot (List.mem_cons.mpr (.inl he))

/-- The ends of timers fail the waiting calls of their ids and generations, and leave the others. -/
theorem run_ends (h : s.Distinct) (timers : List CallTimer) :
    (s.run (ends timers)).1 = { s with slots := s.slots.filter (·.timer ∉ timers) } ∧
      (s.run (ends timers)).2.Perm ((s.slots.filter (·.timer ∈ timers)).map s.timedOut) := by
  induction timers generalizing s with
  | nil =>
    have hall : s.slots.filter (·.timer ∉ []) = s.slots :=
      List.filter_eq_self.mpr fun slot _ => decide_eq_true List.not_mem_nil
    have hnone : s.slots.filter (·.timer ∈ []) = [] :=
      List.filter_eq_nil_iff.mpr fun slot _ hmem => List.not_mem_nil (of_decide_eq_true hmem)
    rw [hall, hnone]
    exact ⟨rfl, .refl _⟩
  | cons timer rest ih =>
    have hstep : s.step (.expire timer.requestId timer.generation) =
      ({ s with slots := s.slots.filter (·.timer ≠ timer) },
        (s.slots.filter (·.timer = timer)).map s.timedOut) := expire_eq h timer
    have hdistinct : Distinct { s with slots := s.slots.filter (·.timer ≠ timer) } :=
      h.sublist (List.filter_sublist.map _)
    obtain ⟨hslots, heffects⟩ := ih hdistinct
    have hrun : s.run (ends (timer :: rest)) =
        ((Session.run { s with slots := s.slots.filter (·.timer ≠ timer) } (ends rest)).1,
          (s.slots.filter (·.timer = timer)).map s.timedOut ++
            (Session.run { s with slots := s.slots.filter (·.timer ≠ timer) } (ends rest)).2) := by
      rw [ends, List.map_cons, run, hstep]
      rfl
    rw [hrun]
    constructor
    · rw [hslots]
      exact congrArg (fun slots => { s with slots }) (filter_other_timers s.slots timer rest)
    · refine (heffects.append_left _).trans ?_
      change ((s.slots.filter (·.timer = timer)).map s.timedOut ++
        ((s.slots.filter (·.timer ≠ timer)).filter (·.timer ∈ rest)).map s.timedOut).Perm _
      rw [← List.map_append]
      exact (perm_filter_timers s.slots timer rest).map _

end Session

namespace TimedSession

variable {t : TimedSession}

/-- Only what is written or armed counts for the timers. -/
theorem foldl_arm (t : TimedSession) (effects : List SessionEffect) :
    effects.foldl arm t = (transmissions effects).foldl arm t := by
  induction effects generalizing t with
  | nil => rfl
  | cons effect rest ih =>
    cases effect with
    | write bytes => exact ih t
    | arm requestId generation => exact ih _
    | resolve caller outcome => exact ih t
    | closed => exact ih t

/-- A step of the session, after which the timers are armed. -/
theorem step_eq (t : TimedSession) (e : SessionEvent) :
    t.step e = ((transmissions (t.session.step e).2).foldl arm
      { t with session := (t.session.step e).1 }, (t.session.step e).2) :=
  congrArg (·, (t.session.step e).2) (foldl_arm _ _)

/-- The end of a timer arms none. -/
theorem step_expire (t : TimedSession) (timer : CallTimer) :
    t.step (.expire timer.requestId timer.generation) =
      ({ t with session := (t.session.step (.expire timer.requestId timer.generation)).1 },
        (t.session.step (.expire timer.requestId timer.generation)).2) := by
  have hsilent : transmissions
      (t.session.step (.expire timer.requestId timer.generation)).2 = [] := by
    rw [Session.step, Session.expire, Session.settle]
    split
    · split
      · rfl
      · rfl
    · rfl
  rw [step_eq, hsilent]
  rfl

/-- The ends of timers arm none. -/
theorem steps_ends (t : TimedSession) (timers : List CallTimer) :
    t.steps (Session.ends timers) = ({ t with session := (t.session.run (Session.ends timers)).1 },
      (t.session.run (Session.ends timers)).2) := by
  induction timers generalizing t with
  | nil => rfl
  | cons timer rest ih =>
    rw [Session.ends, List.map_cons, steps, Session.run, step_expire]
    dsimp only
    rw [← Session.ends, ih]

/-- The timers that end by a moment of the clock. -/
def endingBy (t : TimedSession) (moment : Nat) : List CallTimer :=
  (t.scheduler.queue.timers.filter (·.due ≤ moment / 1000000)).map (·.task)

/-- A clock that moves to a moment ends the timers of that moment: the calls fail that wait for
them, and the others go on waiting. -/
theorem advance_eq (h : t.session.Distinct)
    (hqueue : t.scheduler.queue.Waiting (t.scheduler.now / 1000000)) (nanos : Nat) :
    (t.advance nanos).1 =
      ⟨{ t.session with slots := t.session.slots.filter fun slot =>
          slot.timer ∉ t.endingBy (t.scheduler.now + nanos) }, (t.scheduler.advance nanos).2⟩ ∧
    (t.advance nanos).2.Perm ((t.session.slots.filter fun slot =>
      slot.timer ∈ t.endingBy (t.scheduler.now + nanos)).map t.session.timedOut) := by
  have hle : t.scheduler.now / 1000000 ≤ (t.scheduler.now + nanos) / 1000000 :=
    Nat.div_le_div_right (Nat.le_add_right _ _)
  have hdue : (t.scheduler.advance nanos).1 = t.endingBy (t.scheduler.now + nanos) :=
    (hqueue.poll hle).1
  have hadvance : t.advance nanos = ({ t with scheduler := (t.scheduler.advance nanos).2 } :
      TimedSession).steps (Session.ends (t.endingBy (t.scheduler.now + nanos))) := by
    rw [← hdue]
    rfl
  obtain ⟨hsession, heffects⟩ := Session.run_ends h (t.endingBy (t.scheduler.now + nanos))
  rw [hadvance, steps_ends]
  exact ⟨congrArg (TimedSession.mk · _) hsession, heffects⟩

end TimedSession

end RemoteCall
