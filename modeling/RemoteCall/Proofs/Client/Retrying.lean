import RemoteCall.Proofs.Client.Connecting

/-!
# Bounded retry

A connector counts the attempts that it starts and forgets them when it becomes ready. So in a run
its counter is the number of attempts that were started since it last became ready, and that number
never exceeds the limit: in no stretch of a run in which it does not become ready are more attempts
started. When as many attempts have failed in a row as the limit allows, nothing is in progress, and
nothing but closing the connector changes it again: every caller is refused, and no attempt starts.
-/

namespace RemoteCall

/-- Whether an effect starts an attempt. -/
def ConnectorEffect.isConnect : ConnectorEffect → Bool
  | connect _ => true
  | _ => false

namespace Connector

/-- How many attempts effects start. -/
def connects (effects : List ConnectorEffect) : Nat := effects.countP ConnectorEffect.isConnect

/-- What is done in two stretches starts as many attempts as both do together. -/
theorem connects_append (effects more : List ConnectorEffect) :
    connects (effects ++ more) = connects effects + connects more :=
  List.countP_append

/-- Answers to callers start no attempt. -/
theorem connects_answers (callers : List Nat) (outcome : Except CallError Nat) :
    connects (callers.map fun caller => .answer caller outcome) = 0 := by
  rw [connects, List.countP_map]
  exact List.countP_eq_zero.mpr fun _ _ => Bool.false_ne_true

/-- Whether a connector that was in one phase has become ready in another. -/
def hasBecomeReady (before after : ConnectorPhase) : Bool :=
  match after with
  | .ready _ => before != after
  | _ => false

/-- Whether a step makes the connector ready. -/
def makesReady (c : Connector) (e : ConnectorEvent) : Bool :=
  hasBecomeReady c.phase (c.step e).1.phase

/-- Whether some step of a run makes the connector ready. -/
def becomesReady (c : Connector) : List ConnectorEvent → Bool
  | [] => false
  | e :: rest => c.makesReady e || (c.step e).1.becomesReady rest

/-- How many attempts a step starts. -/
def startedBy (c : Connector) (e : ConnectorEvent) : Nat := connects (c.step e).2

/-- How many attempts an event lets fail: that of its generation, if it has no connection yet. -/
def failedBy (c : Connector) : ConnectorEvent → Nat
  | .fail generation _ => if (c.attempt? generation).any (!·.isConnected) then 1 else 0
  | _ => 0

/-- What the steps of a run add up to since the connector last became ready; `n` is what there was
before the run. -/
def sinceReady (count : Connector → ConnectorEvent → Nat) (c : Connector) (n : Nat) :
    List ConnectorEvent → Nat
  | [] => n
  | e :: rest =>
    (c.step e).1.sinceReady count (if c.makesReady e then 0 else n + count c e) rest

variable {c : Connector}

/-- A run in which the connector does not become ready adds all its attempts. -/
theorem sinceReady_startedBy {events : List ConnectorEvent} (hnever : c.becomesReady events = false)
    (n : Nat) : c.sinceReady startedBy n events = n + connects (c.run events).2 := by
  induction events generalizing c n with
  | nil => rfl
  | cons e rest ih =>
    obtain ⟨hstep, hrest⟩ := Bool.or_eq_false_iff.mp hnever
    rw [sinceReady, hstep, if_neg Bool.false_ne_true, ih hrest, run]
    dsimp only
    rw [connects_append, startedBy, Nat.add_assoc]

/-- The counter of a connector against what has happened since it last became ready: so many
attempts were started, and so many have failed. -/
structure Counted (c : Connector) (started failed : Nat) : Prop where
  single : Single c
  attempts : c.attempts = started
  bounded : c.attempts ≤ c.settings.maxConnectAttempts
  /-- A ready connector has forgotten its attempts, one of which the limit allowed. -/
  ready : ∀ g, c.phase = .ready g → c.attempts = 0 ∧ 0 < c.settings.maxConnectAttempts
  /-- The limit allows the attempt that a connector waits for. -/
  permitted : ∀ g, c.phase = .connecting g → 0 < c.settings.maxConnectAttempts
  /-- Unless the connector has been closed, an attempt that was started is in progress or has
  failed. -/
  balance : c.isClosed = false → started = failed + c.running.length

/-- A connector that has not been asked has counted nothing. -/
theorem counted_start (settings : ClientSettings) : Counted (start settings) 0 0 where
  single := single_start settings
  attempts := rfl
  bounded := Nat.zero_le _
  ready := fun _ hg => by cases hg
  permitted := fun _ hg => by cases hg
  balance := fun _ => rfl

variable {started failed : Nat}

/-- What neither starts nor ends an attempt keeps the count. -/
theorem Counted.quiet (h : Counted c started failed) {c' : Connector} (hsingle : Single c')
    (hsettings : c'.settings = c.settings) (hattempts : c'.attempts = c.attempts)
    (hrunning : c'.running.length = c.running.length)
    (hphase : c'.phase = c.phase ∨ c'.phase = .idle)
    (hopen : c'.isClosed = false → c.isClosed = false) : Counted c' started failed := by
  have hkept : ∀ phase, phase ≠ .idle → c'.phase = phase → c.phase = phase := by
    intro phase hidle hphase'
    rcases hphase with hsame | hnone
    · exact hsame.symm.trans hphase'
    · exact absurd (hphase'.symm.trans hnone) hidle
  constructor
  case single => exact hsingle
  case attempts => exact hattempts.trans h.attempts
  case bounded =>
    rw [hattempts, hsettings]
    exact h.bounded
  case ready =>
    intro g hg
    rw [hattempts, hsettings]
    exact h.ready g (hkept _ ConnectorPhase.noConfusion hg)
  case permitted =>
    intro g hg
    rw [hsettings]
    exact h.permitted g (hkept _ ConnectorPhase.noConfusion hg)
  case balance =>
    intro hopen'
    rw [hrunning]
    exact h.balance (hopen hopen')

/-- A connector does not become ready when it was so before, or is not so afterwards. -/
theorem hasBecomeReady_eq_false {before after : ConnectorPhase}
    (h : ∀ g, after = .ready g → before = after) : hasBecomeReady before after = false := by
  cases after with
  | ready g =>
    rw [h g rfl, hasBecomeReady]
    exact bne_self_eq_false _
  | idle => rfl
  | connecting g => rfl

/-- A step that starts and fails some attempts keeps the count, which begins anew if the connector
becomes ready. -/
structure Tallies (c : Connector) (started failed fails : Nat)
    (out : Connector × List ConnectorEffect) : Prop where
  ongoing : hasBecomeReady c.phase out.1.phase = false →
    Counted out.1 (started + connects out.2) (failed + fails)
  anew : hasBecomeReady c.phase out.1.phase = true → connects out.2 = 0 ∧ Counted out.1 0 0

/-- A step after which the connector is not newly ready. -/
theorem tallies_of_ongoing {fails : Nat} {out : Connector × List ConnectorEffect}
    (hphase : ∀ g, out.1.phase = .ready g → c.phase = out.1.phase)
    (hcounted : Counted out.1 (started + connects out.2) (failed + fails)) :
    Tallies c started failed fails out where
  ongoing := fun _ => hcounted
  anew := fun hready => by
    rw [hasBecomeReady_eq_false hphase] at hready
    cases hready

/-- A step that neither starts nor ends an attempt. -/
theorem Counted.tallies (h : Counted c started failed) {out : Connector × List ConnectorEffect}
    (hsingle : Single out.1) (hsettings : out.1.settings = c.settings)
    (hattempts : out.1.attempts = c.attempts)
    (hrunning : out.1.running.length = c.running.length)
    (hphase : out.1.phase = c.phase ∨ out.1.phase = .idle)
    (hopen : out.1.isClosed = false → c.isClosed = false) (heffects : connects out.2 = 0) :
    Tallies c started failed 0 out := by
  refine tallies_of_ongoing ?_ ?_
  · intro g hg
    rcases hphase with hsame | hidle
    · exact hsame.symm
    · exact absurd (hg.symm.trans hidle) ConnectorPhase.noConfusion
  · rw [heffects]
    exact h.quiet hsingle hsettings hattempts hrunning hphase hopen

/-- A step in which nothing happens. -/
theorem Counted.unchanged (h : Counted c started failed) : Tallies c started failed 0 (c, []) :=
  h.tallies h.single rfl rfl rfl (.inl rfl) id rfl

/-- A caller for whom an attempt starts, or who is refused. -/
theorem Counted.startAttempt (h : Counted c started failed) (hopen : c.isClosed = false)
    (hrunning : c.running = []) (hsessions : c.openSessions = []) (caller : Nat) :
    Tallies c started failed 0 (c.startAttempt caller) := by
  have hsingle := h.single.startAttempt hrunning hsessions caller
  unfold Connector.startAttempt at hsingle ⊢
  split
  · exact h.tallies h.single rfl rfl rfl (.inl rfl) id rfl
  · rename_i hallowed
    rw [if_neg hallowed] at hsingle
    have hless : c.attempts < c.settings.maxConnectAttempts := Nat.lt_of_not_le hallowed
    have hbalance := h.balance hopen
    rw [hrunning] at hbalance ⊢
    refine tallies_of_ongoing (fun g hg => ConnectorPhase.noConfusion hg) ?_
    constructor
    case single => rw [hrunning] at hsingle; exact hsingle
    case attempts => exact congrArg (· + 1) h.attempts
    case bounded => exact hless
    case ready => exact fun g hg => ConnectorPhase.noConfusion hg
    case permitted => exact fun _ _ => Nat.zero_lt_of_lt hless
    case balance =>
      intro _
      exact congrArg (· + 1) hbalance

/-- A caller asks. -/
theorem Counted.request (h : Counted c started failed) (caller : Nat) :
    Tallies c started failed 0 (c.request caller) := by
  have hsingle := h.single.request caller
  unfold Connector.request at hsingle ⊢
  split
  · exact h.tallies h.single rfl rfl rfl (.inl rfl) id rfl
  · rename_i hclosed
    have hopen : c.isClosed = false := Bool.eq_false_iff.mpr hclosed
    rw [if_neg hclosed] at hsingle
    cases hphase : c.phase with
    | ready g =>
      dsimp only
      split
      · exact h.tallies h.single rfl rfl rfl (.inl rfl) id rfl
      · rename_i hshut
        obtain ⟨hrunning, hsessions⟩ := h.single.resting hopen
          (fun g' hg' => by rw [hphase] at hg'; cases hg')
          (fun g' hg' => by
            rw [hphase] at hg'
            cases hg'
            exact Bool.eq_false_iff.mpr hshut)
        exact h.startAttempt hopen hrunning hsessions caller
    | connecting g =>
      rw [hphase] at hsingle
      exact h.tallies hsingle rfl rfl (List.length_map _) (.inl rfl) id rfl
    | idle =>
      obtain ⟨hrunning, hsessions⟩ := h.single.resting hopen
        (fun g hg => by rw [hphase] at hg; cases hg)
        (fun g hg => by rw [hphase] at hg; cases hg)
      exact h.startAttempt hopen hrunning hsessions caller

/-- A connection is there. -/
theorem Counted.connected (h : Counted c started failed) (g : Nat) :
    (c.connected g).1.phase = c.phase ∧ (c.connected g).2 = [] ∧
      Counted (c.connected g).1 started failed := by
  have hsingle := h.single.connected g
  unfold Connector.connected at hsingle ⊢
  split
  · rename_i ha
    rw [ha] at hsingle
    exact ⟨rfl, rfl, h.quiet hsingle rfl rfl (List.length_map _) (.inl rfl) id⟩
  · exact ⟨rfl, rfl, h⟩

/-- The attempt in progress ends with its session: the connector is ready and begins to count anew,
or it has been closed. -/
theorem Counted.settled (h : Counted c started failed) {a : ConnectAttempt} (ha : a ∈ c.running) :
    Tallies c started failed 0 (c.settled a) := by
  have hsingle := h.single.settled ha
  unfold Connector.settled at hsingle ⊢
  by_cases hclosed : c.isClosed = true
  · rw [if_pos hclosed] at hsingle ⊢
    have hnone : connects (.closeSession a.generation :: a.callers.map fun caller =>
        .answer caller (.error (.connection "connector closed"))) = 0 := connects_answers _ _
    refine tallies_of_ongoing (fun _ _ => rfl) ?_
    dsimp only
    rw [hnone]
    exact ⟨hsingle, h.attempts, h.bounded, h.ready, h.permitted,
      fun hopen => absurd hclosed (Bool.eq_false_iff.mp hopen)⟩
  · rw [if_neg hclosed] at hsingle ⊢
    have hphase := (h.single.running_eq (h.single.attempt?_self ha)).2.2.2
      (Bool.eq_false_iff.mpr hclosed)
    have hready : hasBecomeReady c.phase (.ready a.generation) = true := by
      rw [hphase]
      rfl
    refine ⟨fun hnot => ?_, fun _ => ⟨connects_answers _ _, ?_⟩⟩
    · exact absurd hready (Bool.eq_false_iff.mp hnot)
    · constructor
      case single => exact hsingle
      case attempts => rfl
      case bounded => exact Nat.zero_le _
      case ready => exact fun _ _ => ⟨rfl, h.permitted _ hphase⟩
      case permitted => exact fun g' hg' => ConnectorPhase.noConfusion hg'
      case balance => exact fun _ => rfl

/-- An attempt that has its session ends. -/
theorem Counted.settle (h : Counted c started failed) (g : Nat) :
    Tallies c started failed 0 (c.settle g) := by
  rcases h.single.settle_cases g with hsame | ⟨a, ha, -, -, hsettled⟩
  · rw [hsame]
    exact h.unchanged
  · rw [hsettled]
    exact h.settled ha

/-- An attempt ends without a session. -/
theorem Counted.fail (h : Counted c started failed) (g : Nat) (reason : String) :
    Tallies c started failed (c.failedBy (.fail g reason)) (c.fail g reason) := by
  rcases h.single.running with hnone | ⟨a, hone, -⟩
  · rw [failedBy, Connector.fail, attempt?_eq_none hnone]
    exact h.unchanged
  · have ha : a ∈ c.running := hone ▸ List.mem_cons_self
    have hfails : c.failedBy (.fail g reason) =
        if a.generation = g ∧ a.isConnected = false then 1 else 0 := by
      rw [failedBy, h.single.attempt?_eq ha]
      by_cases hg : a.generation = g
      · cases hconnected : a.isConnected <;> simp [hg, hconnected]
      · simp [hg]
    have hsingle := h.single.fail g reason
    rw [h.single.fail_eq ha] at hsingle ⊢
    rw [hfails]
    split
    · rename_i hends
      rw [if_pos hends] at hsingle
      have hkept : ∀ phase, phase ≠ .idle →
          (if c.phase = .connecting g then .idle else c.phase) = phase → c.phase = phase := by
        intro phase hidle hphase
        split at hphase
        · exact absurd hphase.symm hidle
        · exact hphase
      refine tallies_of_ongoing (fun g' hg' => ?_) ?_
      · exact (hkept _ ConnectorPhase.noConfusion hg').trans hg'.symm
      · dsimp only
        rw [connects_answers]
        constructor
        case single => exact hsingle
        case attempts => exact h.attempts
        case bounded => exact h.bounded
        case ready => exact fun g' hg' => h.ready g' (hkept _ ConnectorPhase.noConfusion hg')
        case permitted =>
          exact fun g' hg' => h.permitted g' (hkept _ ConnectorPhase.noConfusion hg')
        case balance =>
          intro hopen
          have hbalance := h.balance hopen
          rw [hone] at hbalance
          exact hbalance
    · exact h.unchanged

/-- A session closes. -/
theorem Counted.sessionShut (h : Counted c started failed) (g : Nat) :
    (c.sessionShut g).phase = c.phase ∧ Counted (c.sessionShut g) started failed := by
  have hsingle := h.single.sessionShut g
  unfold Connector.sessionShut at hsingle ⊢
  split
  · rename_i hg
    rw [if_pos hg] at hsingle
    exact ⟨rfl, h.quiet hsingle rfl rfl rfl (.inl rfl) id⟩
  · exact ⟨rfl, h⟩

/-- The connector is told that a session has closed. -/
theorem Counted.told (h : Counted c started failed) (g : Nat) :
    Tallies c started failed 0 (c.told g, []) := by
  have hsingle := h.single.told g
  unfold Connector.told at hsingle ⊢
  split
  · rename_i hg
    rw [if_pos hg] at hsingle
    refine h.tallies hsingle rfl rfl rfl ?_ id rfl
    dsimp only
    split
    · exact .inr rfl
    · exact .inl rfl
  · exact h.unchanged

/-- The connector is closed. -/
theorem Counted.close (h : Counted c started failed) :
    Tallies c started failed 0 c.close.2 := by
  have hsingle := h.single.close
  unfold Connector.close at hsingle ⊢
  split
  · exact h.unchanged
  · rename_i hopen
    rw [if_neg hopen] at hsingle
    refine h.tallies hsingle rfl rfl rfl (.inr rfl) (fun hclosed => by cases hclosed) ?_
    dsimp only
    split
    · rfl
    · rfl

/-- What a step tallies depends on the phase before it alone. -/
theorem Tallies.of_phase {c' : Connector} {fails : Nat} {out : Connector × List ConnectorEffect}
    (h : Tallies c' started failed fails out) (hphase : c'.phase = c.phase) :
    Tallies c started failed fails out := by
  obtain ⟨hongoing, hanew⟩ := h
  rw [hphase] at hongoing hanew
  exact ⟨hongoing, hanew⟩

/-- Every step keeps the count. -/
theorem Counted.step (h : Counted c started failed) (e : ConnectorEvent) :
    Tallies c started failed (c.failedBy e) (c.step e) := by
  cases e with
  | request caller => exact h.request caller
  | connected g =>
    obtain ⟨hphase, heffects, hcounted⟩ := h.connected g
    refine tallies_of_ongoing (fun _ _ => hphase.symm) ?_
    rw [Connector.step, heffects]
    exact hcounted
  | settle g => exact h.settle g
  | succeed g =>
    obtain ⟨hphase, heffects, hcounted⟩ := h.connected g
    have hsettle := (hcounted.settle g).of_phase hphase
    rw [Connector.step, Connector.succeed]
    dsimp only
    rw [heffects, List.nil_append]
    exact hsettle
  | fail g reason => exact h.fail g reason
  | sessionShut g =>
    obtain ⟨hphase, hcounted⟩ := h.sessionShut g
    exact tallies_of_ongoing (fun _ _ => hphase.symm) hcounted
  | told g => exact h.told g
  | sessionClosed g =>
    obtain ⟨hphase, hcounted⟩ := h.sessionShut g
    exact (hcounted.told g).of_phase hphase
  | close => exact h.close

/-- Every run keeps the count. -/
theorem Counted.run (h : Counted c started failed) (events : List ConnectorEvent) :
    Counted (c.run events).1 (c.sinceReady startedBy started events)
      (c.sinceReady failedBy failed events) := by
  induction events generalizing c started failed with
  | nil => exact h
  | cons e rest ih =>
    have hstep := h.step e
    rw [sinceReady, sinceReady, Connector.run]
    cases hready : c.makesReady e with
    | true => exact ih (hstep.anew hready).2
    | false => exact ih (hstep.ongoing hready)

/-- No step changes the settings. -/
theorem settings_step (c : Connector) (e : ConnectorEvent) :
    (c.step e).1.settings = c.settings := by
  have hstart : ∀ caller, (c.startAttempt caller).1.settings = c.settings := by
    intro caller
    unfold Connector.startAttempt
    split <;> rfl
  have hsettle : ∀ (c : Connector) g, (c.settle g).1.settings = c.settings := by
    intro c g
    unfold Connector.settle
    split
    · split <;> rfl
    · rfl
  have hconnected : ∀ g, (c.connected g).1.settings = c.settings := by
    intro g
    unfold Connector.connected
    split <;> rfl
  have hshut : ∀ g, (c.sessionShut g).settings = c.settings := by
    intro g
    unfold Connector.sessionShut
    split <;> rfl
  have htold : ∀ (c : Connector) g, (c.told g).settings = c.settings := by
    intro c g
    unfold Connector.told
    split <;> rfl
  cases e with
  | request caller =>
    rw [Connector.step]
    unfold Connector.request
    split
    · rfl
    · split
      · split
        · rfl
        · exact hstart caller
      · rfl
      · exact hstart caller
  | connected g => exact hconnected g
  | settle g => exact hsettle c g
  | succeed g => exact (hsettle _ g).trans (hconnected g)
  | fail g reason =>
    rw [Connector.step]
    unfold Connector.fail
    split <;> rfl
  | sessionShut g => exact hshut g
  | told g => exact htold c g
  | sessionClosed g => exact (htold _ g).trans (hshut g)
  | close =>
    rw [Connector.step]
    unfold Connector.close
    split <;> rfl

/-- Nor does a run. -/
theorem settings_run (c : Connector) (events : List ConnectorEvent) :
    (c.run events).1.settings = c.settings := by
  induction events generalizing c with
  | nil => rfl
  | cons e rest ih => exact (ih (c.step e).1).trans (settings_step c e)

/-- A connector that has used up its attempts: as many as the limit allows have failed. -/
structure Exhausted (c : Connector) : Prop where
  attempts : c.attempts = c.settings.maxConnectAttempts
  phase : c.phase = .idle
  running : c.running = []

/-- When as many attempts have failed as the limit allows, nothing is in progress or at hand. -/
theorem Counted.exhausted (h : Counted c started failed) (hopen : c.isClosed = false)
    (hfailed : failed = c.settings.maxConnectAttempts) : Exhausted c := by
  have hbalance := h.balance hopen
  have hattempts := h.attempts
  have hbounded := h.bounded
  have hlength : c.running.length = 0 := by omega
  have hrunning := List.eq_nil_of_length_eq_zero hlength
  refine ⟨by omega, ?_, hrunning⟩
  cases hphase : c.phase with
  | idle => rfl
  | connecting g => exact absurd hrunning (h.single.waiting hopen g hphase)
  | ready g =>
    have hready := h.ready g hphase
    omega

/-- A connector that has used up its attempts refuses every caller. -/
theorem Exhausted.request_eq (h : Exhausted c) (hopen : c.isClosed = false) (caller : Nat) :
    c.request caller = (c, [.answer caller
      (.error (.connectAttemptsExceeded c.settings.maxConnectAttempts))]) := by
  rw [request, if_neg (Bool.eq_false_iff.mp hopen), h.phase]
  dsimp only
  rw [Connector.startAttempt, h.attempts, if_pos (Nat.le_refl _)]

/-- The close of a session changes nothing about attempts that are used up. -/
theorem Exhausted.told (h : Exhausted c) (g : Nat) : Exhausted (c.told g) := by
  unfold Connector.told
  split
  · refine ⟨h.attempts, ?_, h.running⟩
    dsimp only
    rw [h.phase, if_neg ConnectorPhase.noConfusion]
  · exact h

/-- Nothing but closing the connector changes that its attempts are used up, and no attempt
starts. -/
theorem Exhausted.step (h : Exhausted c) (e : ConnectorEvent) :
    Exhausted (c.step e).1 ∧ connects (c.step e).2 = 0 := by
  have hshut : ∀ g, Exhausted (c.sessionShut g) := by
    intro g
    unfold Connector.sessionShut
    split
    · exact ⟨h.attempts, h.phase, h.running⟩
    · exact h
  cases e with
  | request caller =>
    rw [Connector.step]
    cases hopen : c.isClosed with
    | false =>
      rw [h.request_eq hopen]
      exact ⟨h, rfl⟩
    | true =>
      rw [request, if_pos hopen]
      exact ⟨h, rfl⟩
  | connected g =>
    rw [Connector.step, Connector.connected, attempt?_eq_none h.running]
    exact ⟨h, rfl⟩
  | settle g =>
    rw [Connector.step, Connector.settle, attempt?_eq_none h.running]
    exact ⟨h, rfl⟩
  | succeed g =>
    rw [Connector.step, succeed_of_none (attempt?_eq_none h.running g)]
    exact ⟨h, rfl⟩
  | fail g reason =>
    rw [Connector.step, Connector.fail, attempt?_eq_none h.running]
    exact ⟨h, rfl⟩
  | sessionShut g => exact ⟨hshut g, rfl⟩
  | told g => exact ⟨h.told g, rfl⟩
  | sessionClosed g => exact ⟨(hshut g).told g, rfl⟩
  | close =>
    rw [Connector.step, Connector.close]
    split
    · exact ⟨h, rfl⟩
    · rw [h.phase]
      exact ⟨⟨h.attempts, rfl, h.running⟩, rfl⟩

/-- So it stays in every run. -/
theorem Exhausted.run (h : Exhausted c) (events : List ConnectorEvent) :
    Exhausted (c.run events).1 ∧ connects (c.run events).2 = 0 := by
  induction events generalizing c with
  | nil => exact ⟨h, rfl⟩
  | cons e rest ih =>
    obtain ⟨hstep, hnone⟩ := h.step e
    obtain ⟨hrun, hnone'⟩ := ih hstep
    refine ⟨hrun, ?_⟩
    rw [Connector.run]
    dsimp only
    rw [connects_append, hnone, hnone']

/-- What holds of the attempts of a connector in a run from its start. -/
structure BoundedRetry (settings : ClientSettings) (events : List ConnectorEvent) : Prop where
  /-- The counter is the number of attempts started since the connector last became ready, or since
  it was made. -/
  counted : ((start settings).run events).1.attempts =
    (start settings).sinceReady startedBy 0 events
  /-- It never exceeds the limit. -/
  bounded : ((start settings).run events).1.attempts ≤ settings.maxConnectAttempts
  /-- It is zero while the connector is ready. -/
  ready : ∀ g, ((start settings).run events).1.phase = .ready g →
    ((start settings).run events).1.attempts = 0
  /-- When as many attempts have failed since then as the limit allows, the connector refuses every
  caller until it is closed, and no attempt starts, whatever happens. -/
  exhausted : ((start settings).run events).1.isClosed = false →
    (start settings).sinceReady failedBy 0 events = settings.maxConnectAttempts →
    ∀ later, connects (((start settings).run events).1.run later).2 = 0 ∧
      ∀ caller, (((start settings).run events).1.run later).1.isClosed = false →
        (((start settings).run events).1.run later).1.request caller =
          ((((start settings).run events).1.run later).1,
            [.answer caller (.error (.connectAttemptsExceeded settings.maxConnectAttempts))])
  /-- In no stretch of the run in which the connector does not become ready are more attempts
  started than the limit allows. -/
  row : ∀ before stretch after, events = before ++ stretch ++ after →
    ((start settings).run before).1.becomesReady stretch = false →
    connects (((start settings).run before).1.run stretch).2 ≤ settings.maxConnectAttempts

/-- **Bounded retry.** In every run of a connector its counter is the number of attempts since it
last became ready, which never exceeds the limit; once so many have failed, no caller gets a further
attempt. -/
theorem run_boundedRetry (settings : ClientSettings) (events : List ConnectorEvent) :
    BoundedRetry settings events := by
  have hlimit : ∀ events, ((start settings).run events).1.settings.maxConnectAttempts =
      settings.maxConnectAttempts := by
    intro events
    rw [settings_run]
    rfl
  have h := (counted_start settings).run events
  constructor
  case counted => exact h.attempts
  case bounded => exact hlimit events ▸ h.bounded
  case ready => exact fun g hg => (h.ready g hg).1
  case exhausted =>
    intro hopen hfailed later
    have hexhausted := h.exhausted hopen (hfailed.trans (hlimit events).symm)
    obtain ⟨hlater, hnone⟩ := hexhausted.run later
    refine ⟨hnone, fun caller hopen' => ?_⟩
    have hrequest := hlater.request_eq hopen' caller
    rw [settings_run, hlimit] at hrequest
    exact hrequest
  case row =>
    intro before stretch after _ hnever
    have hbefore := (counted_start settings).run before
    have hstretch := hbefore.run stretch
    have hattempts := hstretch.attempts
    rw [sinceReady_startedBy hnever] at hattempts
    have hbounded := hstretch.bounded
    rw [settings_run, hlimit, hattempts] at hbounded
    exact Nat.le_trans (Nat.le_add_left _ _) hbounded

/-- Settings that allow two attempts in a row. -/
def twoAttempts : ClientSettings := { ClientSettings.standard with maxConnectAttempts := 2 }

/-- The first attempt succeeds and its session is lost. -/
def oneSession : List ConnectorEvent := [.request 1, .succeed 1, .sessionClosed 1]

/-- Then the next two attempts fail. -/
def twoFailures : List ConnectorEvent :=
  [.request 2, .request 3, .fail 2 "refused", .request 4, .fail 3 "timed out"]

/-- Two attempts fail in a row where two are allowed: no third one starts, and later callers are
refused. -/
theorem run_boundedRetry_failing :
    BoundedRetry twoAttempts (oneSession ++ twoFailures) ∧
    ((start twoAttempts).run (oneSession ++ twoFailures)).1.isClosed = false ∧
    (start twoAttempts).sinceReady failedBy 0 (oneSession ++ twoFailures) = 2 ∧
    connects (((start twoAttempts).run (oneSession ++ twoFailures)).1.run
      [.request 5, .succeed 3]).2 = 0 ∧
    ((start twoAttempts).run (oneSession ++ twoFailures)).1.request 6 =
      (((start twoAttempts).run (oneSession ++ twoFailures)).1,
        [.answer 6 (.error (.connectAttemptsExceeded 2))]) ∧
    ((start twoAttempts).run oneSession).1.becomesReady twoFailures = false ∧
    connects (((start twoAttempts).run oneSession).1.run twoFailures).2 ≤ 2 := by
  have h := run_boundedRetry twoAttempts (oneSession ++ twoFailures)
  refine ⟨h, rfl, rfl, ?_, ?_, rfl, ?_⟩
  · exact (h.exhausted rfl rfl [.request 5, .succeed 3]).1
  · exact (h.exhausted rfl rfl []).2 6 rfl
  · exact h.row oneSession twoFailures [] rfl rfl

end Connector

end RemoteCall
