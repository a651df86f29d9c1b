import Mathlib.Data.List.Induction
import RemoteCall.Proofs.Client.Deadlines

/-!
# Tasks run on time

Whatever is scheduled and however the clock moves, no task runs twice and none before its delay has
passed. While a scheduler runs, each move of the clock leaves exactly those tasks to be run whose
deadlines are still to come, and tasks run in the order of their deadlines. A scheduler stops when
its owner stops it or a deadline is too far ahead for its queue; then nothing runs any more and
nothing more is taken.
-/

namespace RemoteCall

variable {τ : Type}

/-- A task that has been scheduled, with the moment of the clock at which it was. -/
structure Scheduled (τ : Type) where
  moment : Nat
  delay : Nat
  task : τ

namespace Scheduled

/-- The millisecond from which on a task is due. -/
def deadline (w : Scheduled τ) : Nat := Scheduler.roundUp (w.moment + w.delay)

/-- The timer of a task. -/
def timer (w : Scheduled τ) : Timer τ := ⟨w.deadline, w.task⟩

/-- The delay has passed at the deadline. -/
theorem delay_le_deadline (w : Scheduled τ) : w.moment + w.delay ≤ w.deadline * 1000000 :=
  (Scheduler.roundUp_bounds _).1

/-- Tasks and their timers are in the same order. -/
theorem sorted_map_timer (waiting : List (Scheduled τ)) :
    TimerQueue.Sorted (waiting.map timer) ↔
      waiting.Pairwise fun w v => w.deadline ≤ v.deadline :=
  List.pairwise_map

/-- A timer is put in where its deadline belongs, and so is its task. -/
theorem exists_insertTimer (isFirst : Bool) (w : Scheduled τ) (waiting : List (Scheduled τ)) :
    ∃ waiting' : List (Scheduled τ),
      TimerQueue.insertTimer isFirst w.timer (waiting.map timer) = waiting'.map timer ∧
        waiting'.Perm (w :: waiting) := by
  induction waiting with
  | nil => exact ⟨[w], rfl, .refl _⟩
  | cons v rest ih =>
    obtain ⟨rest', hrest, hperm⟩ := ih
    rw [List.map_cons, TimerQueue.insertTimer, hrest]
    split
    · exact ⟨v :: rest', rfl, (hperm.cons v).trans (.swap w v rest)⟩
    · exact ⟨w :: v :: rest, rfl, .refl _⟩

end Scheduled

namespace SchedulerEvent

/-- By how much an event moves the clock. -/
def nanos : SchedulerEvent τ → Nat
  | schedule _ _ => 0
  | advance nanos => nanos
  | stop => 0

/-- The tasks that an event schedules at a moment of the clock. -/
def scheduled (now : Nat) : SchedulerEvent τ → List (Scheduled τ)
  | schedule delay task => [⟨now, delay, task⟩]
  | advance _ => []
  | stop => []

end SchedulerEvent

namespace Scheduler

variable {s : Scheduler τ} {events : List (SchedulerEvent τ)} {taken waiting : List (Scheduled τ)}
  {ran : List (Nat × Scheduled τ)}

/-- By how much events move the clock. -/
def elapsed : List (SchedulerEvent τ) → Nat
  | [] => 0
  | e :: rest => e.nanos + elapsed rest

/-- The tasks that events schedule from a moment of the clock on. -/
def scheduledFrom (now : Nat) : List (SchedulerEvent τ) → List (Scheduled τ)
  | [] => []
  | e :: rest => e.scheduled now ++ scheduledFrom (now + e.nanos) rest

/-- Whether a scheduler goes on after an event. A deadline may lie one turn of the wheel ahead. -/
def GoesOn (s : Scheduler τ) : SchedulerEvent τ → Prop
  | .schedule delay _ => roundUp (s.now + delay) ≤ s.queue.reached + TimerQueue.maxDelay
  | .advance _ => True
  | .stop => False

/-! ## Runs -/

/-- A task that is scheduled goes into the queue, or the queue refuses its deadline, or the
scheduler is not running. -/
theorem schedule_cases (s : Scheduler τ) (delay : Nat) (task : τ) :
    (∃ queue, s.isRunning = true ∧ s.queue.insert? (roundUp (s.now + delay)) task = some queue ∧
      s.schedule delay task = (true, { s with queue })) ∨
    (s.isRunning = true ∧ s.queue.insert? (roundUp (s.now + delay)) task = none ∧
      s.schedule delay task = (true, s.shutdown)) ∨
    (s.isRunning = false ∧ s.schedule delay task = (false, s)) := by
  unfold schedule
  cases hrunning : s.isRunning with
  | false => exact .inr (.inr ⟨rfl, rfl⟩)
  | true =>
    cases hinsert : s.queue.insert? (roundUp (s.now + delay)) task with
    | none => exact .inr (.inl ⟨rfl, rfl, rfl⟩)
    | some queue => exact .inl ⟨queue, rfl, rfl, rfl⟩

/-- The clock moves with the events. -/
theorem now_step (s : Scheduler τ) (e : SchedulerEvent τ) : (s.step e).2.now = s.now + e.nanos := by
  cases e with
  | schedule delay task =>
    rw [step]
    obtain ⟨queue, -, -, heq⟩ | ⟨-, -, heq⟩ | ⟨-, heq⟩ := s.schedule_cases delay task
    · rw [heq]
      rfl
    · rw [heq]
      rfl
    · rw [heq]
      rfl
  | advance nanos => rfl
  | stop => rfl

/-- A run by its first event. -/
theorem run_cons (s : Scheduler τ) (e : SchedulerEvent τ) (rest : List (SchedulerEvent τ)) :
    s.run (e :: rest) =
      ((s.step e).1.map (fun task => ((s.step e).2.now, task)) ++ ((s.step e).2.run rest).1,
        ((s.step e).2.run rest).2) :=
  rfl

/-- A run in two parts. -/
theorem run_append (s : Scheduler τ) (before after : List (SchedulerEvent τ)) :
    s.run (before ++ after) = ((s.run before).1 ++ ((s.run before).2.run after).1,
      ((s.run before).2.run after).2) := by
  induction before generalizing s with
  | nil => rfl
  | cons e rest ih =>
    rw [List.cons_append, run_cons, run_cons, ih, List.append_assoc]

/-- One event after a run. -/
theorem run_concat (s : Scheduler τ) (events : List (SchedulerEvent τ)) (e : SchedulerEvent τ) :
    s.run (events ++ [e]) =
      ((s.run events).1 ++ ((s.run events).2.step e).1.map
        fun task => (((s.run events).2.step e).2.now, task), ((s.run events).2.step e).2) := by
  rw [run_append, run_cons, run, List.append_nil]

/-- The clock of a run. -/
theorem now_run (s : Scheduler τ) (events : List (SchedulerEvent τ)) :
    (s.run events).2.now = s.now + elapsed events := by
  induction events generalizing s with
  | nil => rfl
  | cons e rest ih =>
    rw [run_cons, elapsed, ← Nat.add_assoc, ← now_step]
    exact ih _

/-- What one more event schedules. -/
theorem scheduledFrom_concat (now : Nat) (events : List (SchedulerEvent τ))
    (e : SchedulerEvent τ) : scheduledFrom now (events ++ [e]) =
      scheduledFrom now events ++ e.scheduled (now + elapsed events) := by
  induction events generalizing now with
  | nil => exact List.append_nil _
  | cons f rest ih =>
    rw [List.cons_append, scheduledFrom, scheduledFrom, ih, elapsed, List.append_assoc,
      Nat.add_assoc]

/-! ## Stopping -/

/-- What a stopped scheduler is like: nothing is pending. -/
structure Stopped (s : Scheduler τ) : Prop where
  isRunning : s.isRunning = false
  timers : s.queue.timers = []

/-- Nothing runs on a stopped scheduler, and it stays stopped. -/
theorem Stopped.step (h : s.Stopped) (e : SchedulerEvent τ) :
    (s.step e).1 = [] ∧ (s.step e).2.Stopped := by
  cases e with
  | schedule delay task =>
    unfold Scheduler.step schedule
    rw [h.isRunning]
    exact ⟨rfl, h⟩
  | advance nanos =>
    obtain ⟨hleft, hstay⟩ := s.queue.poll_eq ((s.now + nanos) / 1000000)
    rw [h.timers] at hleft hstay
    exact ⟨hleft, h.isRunning, hstay⟩
  | stop => exact ⟨rfl, rfl, rfl⟩

/-- Nor in all that follows. -/
theorem Stopped.run (h : s.Stopped) (events : List (SchedulerEvent τ)) :
    (s.run events).1 = [] ∧ (s.run events).2.Stopped := by
  induction events generalizing s with
  | nil => exact ⟨rfl, h⟩
  | cons e rest ih =>
    obtain ⟨htasks, hstep⟩ := h.step e
    obtain ⟨hmore, hlater⟩ := ih hstep
    rw [run_cons, htasks, hmore]
    exact ⟨rfl, hlater⟩

/-- A queue takes what lies no more than a turn of the wheel ahead. -/
theorem isSome_insert? (q : TimerQueue τ) (deadline : Nat) (task : τ) :
    (q.insert? deadline task).isSome = true ↔ deadline ≤ q.reached + TimerQueue.maxDelay := by
  unfold TimerQueue.insert?
  dsimp only
  split
  · simp only [Option.isSome_none, Bool.false_eq_true, false_iff]
    omega
  · simp only [Option.isSome_some, true_iff]
    omega

/-- A running scheduler goes on, or else it stops. -/
theorem isRunning_step (s : Scheduler τ) (e : SchedulerEvent τ) :
    (s.step e).2.isRunning = true ↔ s.isRunning = true ∧ s.GoesOn e := by
  cases e with
  | schedule delay task =>
    have hadmitted := isSome_insert? s.queue (roundUp (s.now + delay)) task
    rw [step, GoesOn, ← hadmitted]
    obtain ⟨queue, hrunning, hinsert, heq⟩ | ⟨hrunning, hinsert, heq⟩ | ⟨hstopped, heq⟩ :=
      s.schedule_cases delay task
    · simp [heq, hrunning, hinsert]
    · simp [heq, hinsert, shutdown]
    · simp [heq, hstopped]
  | advance nanos => exact (iff_of_eq (and_true _)).symm
  | stop => exact ⟨fun h => absurd h Bool.false_ne_true, fun h => h.2.elim⟩

/-- A scheduler runs as long as it has gone on after every event. -/
theorem isRunning_run (s : Scheduler τ) (events : List (SchedulerEvent τ)) :
    (s.run events).2.isRunning = true ↔ s.isRunning = true ∧
      ∀ before e after, events = before ++ e :: after → (s.run before).2.GoesOn e := by
  induction events generalizing s with
  | nil => simp [run]
  | cons f rest ih =>
    rw [run_cons, ih, isRunning_step, and_assoc]
    refine and_congr_right fun _ => ⟨fun ⟨hfirst, hrest⟩ before e after heq => ?_, fun h => ?_⟩
    · cases before with
      | nil =>
        obtain ⟨rfl, rfl⟩ := List.cons.inj heq
        exact hfirst
      | cons g before =>
        obtain ⟨rfl, htail⟩ := List.cons.inj heq
        exact hrest before e after htail
    · exact ⟨h [] f rest rfl, fun before e after heq => h (f :: before) e after (heq ▸ rfl)⟩

/-! ## The books of a scheduler -/

/-- The books of a scheduler: the tasks that have been scheduled, those that wait, in the order in
which they leave the queue, and those that have run, each with the moment at which it did. -/
structure Books (s : Scheduler τ) (taken waiting : List (Scheduled τ))
    (ran : List (Nat × Scheduled τ)) : Prop where
  timers : s.queue.timers = waiting.map Scheduled.timer
  reached : s.queue.reached ≤ s.now / 1000000
  /-- Each task has run once, waits or has been dropped. -/
  conserved : (ran.map (·.2) ++ waiting).Subperm taken
  /-- None is dropped while the scheduler runs. -/
  kept : s.isRunning = true → (ran.map (·.2) ++ waiting).Perm taken
  /-- None waits when it has stopped. -/
  discarded : s.isRunning = false → waiting = []
  ordered : (ran.map (·.2) ++ waiting).Pairwise fun w v => w.deadline ≤ v.deadline
  /-- What has run was due. -/
  due : ∀ r ∈ ran, r.2.deadline * 1000000 ≤ r.1 ∧ r.1 ≤ s.now

namespace Books

/-- A scheduler that has just been started. -/
theorem start : Books (start : Scheduler τ) [] [] [] where
  timers := rfl
  reached := Nat.zero_le _
  conserved := .refl _
  kept := fun _ => .refl _
  discarded := fun _ => rfl
  ordered := .nil
  due := fun _ hr => absurd hr List.not_mem_nil

/-- A scheduler that is not running has nothing pending. -/
theorem stopped (h : Books s taken waiting ran) (hrunning : s.isRunning = false) : s.Stopped where
  isRunning := hrunning
  timers := by rw [h.timers, h.discarded hrunning, List.map_nil]

/-- When a scheduler is shut down, all that waits is dropped. -/
theorem shutdown (h : Books s taken waiting ran) : Books s.shutdown taken [] ran where
  timers := rfl
  reached := Nat.zero_le _
  conserved := by
    rw [List.append_nil]
    exact (List.sublist_append_left _ waiting).subperm.trans h.conserved
  kept := fun hrunning => absurd hrunning Bool.false_ne_true
  discarded := fun _ => rfl
  ordered := by
    rw [List.append_nil]
    exact h.ordered.sublist (List.sublist_append_left _ waiting)
  due := h.due

/-- A task more may have been asked for, if the scheduler is not running. -/
theorem refuse (h : Books s taken waiting ran) (hrunning : s.isRunning = false)
    (more : List (Scheduled τ)) : Books s (taken ++ more) waiting ran where
  timers := h.timers
  reached := h.reached
  conserved := h.conserved.trans (List.sublist_append_left taken more).subperm
  kept := fun htrue => absurd (hrunning.symm.trans htrue) Bool.false_ne_true
  discarded := h.discarded
  ordered := h.ordered
  due := h.due

/-- What has run is due no later than what is scheduled now. -/
theorem deadline_le (h : Books s taken waiting ran) {w : Scheduled τ} (hw : w ∈ ran.map (·.2))
    (delay : Nat) (task : τ) : w.deadline ≤ (Scheduled.mk s.now delay task).deadline := by
  obtain ⟨r, hr, rfl⟩ := List.mem_map.mp hw
  obtain ⟨hdue, hnow⟩ := h.due r hr
  have hdelay := (Scheduled.mk s.now delay task).delay_le_deadline
  dsimp only at hdelay
  omega

/-- A task that the queue takes waits among the others. -/
theorem insert (h : Books s taken waiting ran) (hrunning : s.isRunning = true) {delay : Nat}
    {task : τ} {queue : TimerQueue τ}
    (hqueue : s.queue.insert? (roundUp (s.now + delay)) task = some queue) :
    ∃ waiting', Books { s with queue } (taken ++ [⟨s.now, delay, task⟩]) waiting' ran := by
  have hroundUp := roundUp_bounds (s.now + delay)
  have hreached := h.reached
  have hpassed : s.queue.reached ≤ roundUp (s.now + delay) := by omega
  obtain ⟨hsame, isFirst, htimers⟩ := TimerQueue.timers_of_insert? hpassed hqueue
  obtain ⟨waiting', hinsert, hperm⟩ :=
    Scheduled.exists_insertTimer isFirst ⟨s.now, delay, task⟩ waiting
  obtain ⟨hran, hwaiting, hbefore⟩ := List.pairwise_append.mp h.ordered
  -- the account with the new task at its end, where it has been scheduled last
  have haccount : (ran.map (·.2) ++ waiting').Perm
      ((ran.map (·.2) ++ waiting) ++ [⟨s.now, delay, task⟩]) := by
    rw [List.append_assoc]
    exact (hperm.trans (List.perm_append_singleton _ waiting).symm).append_left _
  have htimers' : queue.timers = waiting'.map Scheduled.timer := by
    rw [htimers, h.timers]
    exact hinsert
  have hsorted : waiting'.Pairwise fun w v => w.deadline ≤ v.deadline := by
    have hold := (Scheduled.sorted_map_timer waiting).mpr hwaiting
    have hnew := hold.insertTimer isFirst (Scheduled.timer ⟨s.now, delay, task⟩)
    rw [hinsert] at hnew
    exact (Scheduled.sorted_map_timer waiting').mp hnew
  refine ⟨waiting', htimers', hsame ▸ hreached, ?_, fun _ => ?_, fun hstopped => ?_, ?_, h.due⟩
  · exact haccount.subperm.trans ((List.subperm_append_right _).mpr h.conserved)
  · exact haccount.trans ((h.kept hrunning).append_right _)
  · exact absurd (hstopped.symm.trans hrunning) Bool.false_ne_true
  · refine List.pairwise_append.mpr ⟨hran, hsorted, fun w hw v hv => ?_⟩
    rcases List.mem_cons.mp (hperm.mem_iff.mp hv) with rfl | hold
    · exact h.deadline_le hw delay task
    · exact hbefore w hw v hold

/-- What has been asked for, taken or not. -/
theorem schedule (h : Books s taken waiting ran) (delay : Nat) (task : τ) :
    ∃ waiting', Books (s.schedule delay task).2 (taken ++ [⟨s.now, delay, task⟩]) waiting' ran := by
  obtain ⟨queue, hrunning, hinsert, heq⟩ | ⟨-, -, heq⟩ | ⟨hstopped, heq⟩ :=
    s.schedule_cases delay task
  · rw [heq]
    exact h.insert hrunning hinsert
  · rw [heq]
    exact ⟨[], h.shutdown.refuse rfl _⟩
  · rw [heq]
    exact ⟨waiting, h.refuse hstopped _⟩

/-- At a millisecond those leave the queue that are due. They have stood in front of the others. -/
theorem poll (h : Books s taken waiting ran) (millis : Nat) :
    ∃ tasks waiting', waiting = tasks ++ waiting' ∧
      (s.queue.poll millis).1 = tasks.map Scheduled.task ∧
      (s.queue.poll millis).2.timers = waiting'.map Scheduled.timer ∧
      (∀ w ∈ tasks, w.deadline ≤ millis) ∧ ∀ w ∈ waiting', millis < w.deadline := by
  have hwaiting := (List.pairwise_append.mp h.ordered).2.1
  obtain ⟨hleft, hstay⟩ := s.queue.poll_eq millis
  obtain ⟨-, hlater⟩ := ((Scheduled.sorted_map_timer waiting).mpr hwaiting).takeWhile_due millis
  rw [h.timers, List.takeWhile_map, List.map_map] at hleft
  rw [h.timers, List.dropWhile_map] at hstay
  rw [List.dropWhile_map] at hlater
  refine ⟨waiting.takeWhile (·.deadline ≤ millis), waiting.dropWhile (·.deadline ≤ millis),
    List.takeWhile_append_dropWhile.symm, hleft, hstay, fun w hw => ?_, fun w hw => ?_⟩
  · exact of_decide_eq_true (List.all_eq_true.mp List.all_takeWhile w hw)
  · have htimer : w.timer ∈ (waiting.map Scheduled.timer).filter (millis < ·.due) :=
      hlater ▸ List.mem_map_of_mem hw
    exact of_decide_eq_true (List.mem_filter.mp htimer).2

/-- When the clock moves, those run that are due by then, and the others wait. -/
theorem advance (h : Books s taken waiting ran) (nanos : Nat) :
    ∃ tasks waiting' : List (Scheduled τ), (s.advance nanos).1 = tasks.map Scheduled.task ∧
      Books (s.advance nanos).2 taken waiting' (ran ++ tasks.map fun w => (s.now + nanos, w)) ∧
      ∀ w ∈ waiting', s.now + nanos < w.deadline * 1000000 := by
  obtain ⟨tasks, waiting', rfl, hleft, hstay, hdue, hlater⟩ := h.poll ((s.now + nanos) / 1000000)
  -- what runs now only moves to the other side of the account
  have haccount : (ran ++ tasks.map fun w => (s.now + nanos, w)).map (·.2) ++ waiting' =
      ran.map (·.2) ++ (tasks ++ waiting') := by
    simp [Function.comp_def]
  have hreached : s.queue.reached ≤ (s.now + nanos) / 1000000 := by
    have hold := h.reached
    omega
  refine ⟨tasks, waiting', hleft,
    { timers := hstay
      reached := TimerQueue.reached_poll_le hreached
      conserved := haccount ▸ h.conserved
      kept := haccount ▸ h.kept
      discarded := fun hstopped => (List.append_eq_nil_iff.mp (h.discarded hstopped)).2
      ordered := haccount ▸ h.ordered
      due := fun r hr => ?_ }, fun w hw => ?_⟩
  · rcases List.mem_append.mp hr with hold | hnew
    · obtain ⟨hdue, hnow⟩ := h.due r hold
      exact ⟨hdue, Nat.le_trans hnow (Nat.le_add_right _ _)⟩
    · obtain ⟨w, hw, rfl⟩ := List.mem_map.mp hnew
      have hmoment : w.deadline * 1000000 ≤ s.now + nanos := by
        have hmillis := hdue w hw
        omega
      exact ⟨hmoment, Nat.le_refl _⟩
  · have hmillis := hlater w hw
    omega

/-- What an event does to the books. -/
theorem step (h : Books s taken waiting ran) (e : SchedulerEvent τ) :
    ∃ tasks waiting' : List (Scheduled τ), (s.step e).1 = tasks.map Scheduled.task ∧
      Books (s.step e).2 (taken ++ e.scheduled s.now) waiting'
        (ran ++ tasks.map fun w => ((s.step e).2.now, w)) ∧
      ∀ nanos, e = .advance nanos → ∀ w ∈ waiting', (s.step e).2.now < w.deadline * 1000000 := by
  cases e with
  | schedule delay task =>
    obtain ⟨waiting', hbooks⟩ := h.schedule delay task
    refine ⟨[], waiting', rfl, ?_, fun _ hadvance => nomatch hadvance⟩
    rw [List.map_nil, List.append_nil]
    exact hbooks
  | advance nanos =>
    obtain ⟨tasks, waiting', htasks, hbooks, hlater⟩ := h.advance nanos
    refine ⟨tasks, waiting', htasks, ?_, fun _ _ => hlater⟩
    rw [SchedulerEvent.scheduled, List.append_nil]
    exact hbooks
  | stop =>
    refine ⟨[], [], rfl, ?_, fun _ hadvance => nomatch hadvance⟩
    rw [SchedulerEvent.scheduled, List.append_nil, List.map_nil, List.append_nil]
    exact h.shutdown

end Books

/-- The books of a run from the start. -/
theorem exists_books (events : List (SchedulerEvent τ)) :
    ∃ (ran : List (Nat × Scheduled τ)) (waiting : List (Scheduled τ)),
      (start.run events).1 = ran.map (fun r => (r.1, r.2.task)) ∧
      Books (start.run events).2 (scheduledFrom 0 events) waiting ran ∧
      ∀ before nanos, events = before ++ [.advance nanos] →
        ∀ w ∈ waiting, (start.run events).2.now < w.deadline * 1000000 := by
  induction events using List.reverseRecOn with
  | nil =>
    refine ⟨[], [], rfl, .start, fun before nanos heq => ?_⟩
    simp at heq
  | append_singleton events e ih =>
    obtain ⟨ran, waiting, hlog, hbooks, -⟩ := ih
    obtain ⟨tasks, waiting', htasks, hstep, hlater⟩ := hbooks.step e
    have hclock : (start.run events).2.now = 0 + elapsed events := now_run start events
    rw [hclock, ← scheduledFrom_concat] at hstep
    rw [run_concat]
    refine ⟨_, waiting', ?_, hstep, fun before nanos heq => ?_⟩
    · rw [hlog, htasks, List.map_append, List.map_map, List.map_map]
      rfl
    · have hlast : [e] = [.advance nanos] := (List.append_inj' heq rfl).2
      exact hlater nanos (List.singleton_inj.mp hlast)

/-- What has run in the end: tasks that have been scheduled, in order, each with the moment of the
clock at which it ran. -/
structure OnTime (events : List (SchedulerEvent τ)) (ran : List (Nat × Scheduled τ)) : Prop where
  clock : (start.run events).2.now = elapsed events
  /-- The log of the run shows these tasks. -/
  logged : (start.run events).1 = ran.map fun r => (r.1, r.2.task)
  /-- Each has run no more often than it has been scheduled. -/
  atMostOnce : (ran.map (·.2)).Subperm (scheduledFrom 0 events)
  /-- None has run before its delay had passed. -/
  notEarly : ∀ r ∈ ran, r.2.moment + r.2.delay ≤ r.1
  /-- They have run in the order of their deadlines. -/
  inOrder : (ran.map (·.2)).Pairwise fun w v => w.deadline ≤ v.deadline
  /-- If the scheduler has not stopped, exactly those have run after a move of the clock whose
  deadlines have been reached. -/
  complete : (start.run events).2.isRunning = true →
    ∀ before nanos, events = before ++ [.advance nanos] → (ran.map (·.2)).Perm
      ((scheduledFrom 0 events).filter fun w => w.deadline * 1000000 ≤ elapsed events)

/-- When a scheduler runs, and what it does when it does not. -/
structure Stops (events : List (SchedulerEvent τ)) (s : Scheduler τ) : Prop where
  /-- A scheduler runs unless it has been stopped or a deadline was too far ahead. -/
  isRunning_iff : s.isRunning = true ↔
    ∀ before e after, events = before ++ e :: after → (start.run before).2.GoesOn e
  /-- As long as it runs it takes every task, and none when it has stopped. -/
  answers : ∀ delay task, (s.schedule delay task).1 = s.isRunning
  /-- When it has stopped nothing runs, whatever happens, and it does not start again. -/
  final : s.isRunning = false → ∀ more, (s.run more).1 = [] ∧ (s.run more).2.isRunning = false

/-- A run with such books is on time. -/
theorem OnTime.ofBooks (h : Books (start.run events).2 (scheduledFrom 0 events) waiting ran)
    (hlog : (start.run events).1 = ran.map fun r => (r.1, r.2.task))
    (hlater : ∀ before nanos, events = before ++ [.advance nanos] →
      ∀ w ∈ waiting, (start.run events).2.now < w.deadline * 1000000) : OnTime events ran where
  clock := (now_run start events).trans (Nat.zero_add _)
  logged := hlog
  atMostOnce := (List.sublist_append_left _ waiting).subperm.trans h.conserved
  notEarly := fun r hr => Nat.le_trans r.2.delay_le_deadline (h.due r hr).1
  inOrder := (List.pairwise_append.mp h.ordered).1
  complete := fun hrunning before nanos heq => by
    have hclock : (start.run events).2.now = elapsed events :=
      (now_run start events).trans (Nat.zero_add _)
    have hran : (ran.map (·.2)).filter (fun w => w.deadline * 1000000 ≤ elapsed events) =
        ran.map (·.2) := by
      refine List.filter_eq_self.mpr fun w hw => decide_eq_true ?_
      obtain ⟨r, hr, rfl⟩ := List.mem_map.mp hw
      obtain ⟨hdue, hnow⟩ := h.due r hr
      exact hclock ▸ Nat.le_trans hdue hnow
    have hwaiting : waiting.filter (fun w => w.deadline * 1000000 ≤ elapsed events) = [] := by
      refine List.filter_eq_nil_iff.mpr fun w hw hdue => ?_
      have hafter := hlater before nanos heq w hw
      have hnow := of_decide_eq_true hdue
      omega
    have hfilter := (h.kept hrunning).filter fun w => w.deadline * 1000000 ≤ elapsed events
    rw [List.filter_append, hran, hwaiting, List.append_nil] at hfilter
    exact hfilter

/-- Whatever is scheduled, however the clock moves and whenever the scheduler is stopped: tasks run
at most once, on time and in order, all that are due have run after a move of the clock, and nothing
runs when the scheduler has stopped. -/
theorem tasks_run_on_time (events : List (SchedulerEvent τ)) :
    (∃ ran, OnTime events ran) ∧ Stops events (start.run events).2 := by
  obtain ⟨ran, waiting, hlog, hbooks, hlater⟩ := exists_books events
  refine ⟨⟨ran, .ofBooks hbooks hlog hlater⟩, ?_, fun delay task => ?_, fun hstopped more => ?_⟩
  · rw [isRunning_run]
    exact and_iff_right rfl
  · obtain ⟨queue, hrunning, -, heq⟩ | ⟨hrunning, -, heq⟩ | ⟨hstopped, heq⟩ :=
      (start.run events).2.schedule_cases delay task
    · rw [heq, hrunning]
    · rw [heq, hrunning]
    · rw [heq, hstopped]
  · obtain ⟨hnone, hlater⟩ := (hbooks.stopped hstopped).run more
    exact ⟨hnone, hlater.isRunning⟩

example : (start.run [.schedule 3000000 "late", .schedule 1000001 "early", .advance 1500000,
    .advance 500000, .schedule 1000001 "later", .advance 4000000, .schedule 1000000 "never",
    .stop, .schedule 0 "refused", .advance 9000000]).1 =
      [(2000000, "early"), (6000000, "late"), (6000000, "later")] := by
  decide

end Scheduler

end RemoteCall
