import RemoteCall.Proofs.Client.Connecting

/-!
# One connection at a time

A connector has at most one attempt in progress and at most one open session. Callers that ask in
the meantime share the outcome of the attempt, unless the connector has been closed: then they are
refused, and the attempt is discarded when it ends.

An event either brings the attempt in progress its outcome, and then exactly its callers are
answered, or the attempt goes on and none of them is. So a run decides what they are given: the
outcome that the first such event brings.
-/

namespace RemoteCall

/-- The caller that an effect answers, with the outcome. -/
def ConnectorEffect.answer? : ConnectorEffect → Option (Nat × Except CallError Nat)
  | answer caller outcome => some (caller, outcome)
  | _ => none

/-- The phase of a connector whose attempt has ended with an outcome. -/
def ConnectorPhase.after : Except CallError Nat → ConnectorPhase
  | .ok g => .ready g
  | .error _ => .idle

namespace Connector

/-- The callers that effects answer, with the outcomes, in order. -/
def answered (effects : List ConnectorEffect) : List (Nat × Except CallError Nat) :=
  effects.filterMap ConnectorEffect.answer?

/-- What is done one after the other answers callers one after the other. -/
theorem answered_append (effects more : List ConnectorEffect) :
    answered (effects ++ more) = answered effects ++ answered more :=
  List.filterMap_append

/-- Giving callers one outcome answers each of them with it. -/
theorem answered_map (callers : List Nat) (outcome : Except CallError Nat) :
    answered (callers.map fun caller => .answer caller outcome) =
      callers.map fun caller => (caller, outcome) := by
  rw [answered, List.filterMap_map]
  exact congrFun List.filterMap_eq_map callers

/-- The outcome of an attempt that has its session: the session, unless the connector has been
closed. -/
def sessionOutcome (c : Connector) (g : Nat) : Except CallError Nat :=
  if c.isClosed then .error (.connection "connector closed") else .ok g

/-- The outcome that an event brings to an attempt, if it ends it. An attempt that has its
connection can be settled and one that has none can fail. -/
def outcome? (c : Connector) (a : ConnectAttempt) : ConnectorEvent → Option (Except CallError Nat)
  | .settle g =>
    if a.generation = g ∧ a.isConnected = true then some (c.sessionOutcome g) else none
  | .succeed g => if a.generation = g then some (c.sessionOutcome g) else none
  | .fail g reason =>
    if a.generation = g ∧ a.isConnected = false then some (.error (.connection reason)) else none
  | _ => none

/-- The outcome that a run brings to the attempt of a generation, if it ends it. -/
def outcomeIn? (c : Connector) (g : Nat) : List ConnectorEvent → Option (Except CallError Nat)
  | [] => none
  | e :: rest => ((c.attempt? g).bind (c.outcome? · e)).or ((c.step e).1.outcomeIn? g rest)

variable {c : Connector} {a : ConnectAttempt}

/-- What has become of a connector whose attempt has ended, and what it has done. -/
structure Ended (out : Connector × List ConnectorEffect) (callers : List Nat)
    (outcome : Except CallError Nat) : Prop where
  /-- No attempt is in progress. -/
  running : out.1.running = []
  /-- Exactly the callers of the attempt have been answered, in the order in which they asked, and
  all of them with its outcome. -/
  answers : answered out.2 = callers.map fun caller => (caller, outcome)
  /-- A session is at hand from now on, unless the connector has been closed. -/
  phase : out.1.isClosed = false → out.1.phase = .after outcome
  /-- If it has been closed, a session that is open has been ordered closed. -/
  discards : out.1.isClosed = true → ∀ g ∈ out.1.openSessions, .closeSession g ∈ out.2

/-- An attempt that ends with its session has ended with it, or it is discarded. -/
theorem ended_settled (hsessions : ∀ g ∈ c.openSessions, g = a.generation) :
    Ended (c.settled a) a.callers (c.sessionOutcome a.generation) := by
  unfold Connector.settled sessionOutcome
  cases hclosed : c.isClosed with
  | true =>
    rw [if_pos rfl, if_pos rfl]
    refine ⟨rfl, answered_map _ _, fun hopen => Bool.noConfusion hopen, fun _ g hg => ?_⟩
    exact hsessions g hg ▸ List.mem_cons_self
  | false =>
    rw [if_neg Bool.false_ne_true, if_neg Bool.false_ne_true]
    exact ⟨rfl, answered_map _ _, fun _ => rfl, fun hopen => Bool.noConfusion hopen⟩

/-- While an attempt is in progress, only its own session can be open. -/
theorem Single.exclusive (h : Single c) (ha : a ∈ c.running) {g : Nat}
    (hg : g ∈ c.openSessions) : g = a.generation ∧ a.isConnected = true := by
  have hlast := (h.running_eq (h.attempt?_self ha)).2.2.1
  rcases h.sessions with hnone | ⟨hone, -⟩
  · rw [hnone] at hg
    exact absurd hg List.not_mem_nil
  · rw [hone] at hg
    refine ⟨(List.mem_singleton.mp hg).trans hlast, ?_⟩
    cases hconnected : a.isConnected with
    | true => rfl
    | false =>
      have hnone := (h.unconnected a ha hconnected).1
      rw [hone] at hnone
      cases hnone

/-- An event that brings the attempt in progress its outcome ends it. -/
theorem Single.ends (h : Single c) (ha : a ∈ c.running) {e : ConnectorEvent}
    {outcome : Except CallError Nat} (he : c.outcome? a e = some outcome) :
    Ended (c.step e) a.callers outcome := by
  have hsessions : ∀ g ∈ c.openSessions, g = a.generation := fun g hg => (h.exclusive ha hg).1
  cases e with
  | settle g =>
    obtain ⟨hends, houtcome⟩ := Option.ite_none_right_eq_some.mp he
    obtain rfl := Option.some.inj houtcome
    rw [Connector.step, h.settle_eq ha, if_pos hends, ← hends.1]
    exact ended_settled hsessions
  | succeed g =>
    obtain ⟨rfl, houtcome⟩ := Option.ite_none_right_eq_some.mp he
    obtain rfl := Option.some.inj houtcome
    rw [Connector.step, h.succeed_eq ha, if_pos rfl]
    refine ended_settled fun g hg => ?_
    dsimp only at hg
    split at hg
    · exact hsessions g hg
    · exact List.mem_singleton.mp hg
  | fail g reason =>
    obtain ⟨hends, houtcome⟩ := Option.ite_none_right_eq_some.mp he
    obtain rfl := Option.some.inj houtcome
    rw [Connector.step, h.fail_eq ha, if_pos hends]
    have hconnecting := (h.running_eq (h.attempt?_self ha)).2.2.2
    refine ⟨rfl, answered_map _ _, fun hopen => if_pos (hends.1 ▸ hconnecting hopen), ?_⟩
    intro _ g' hg'
    exact absurd (h.exclusive ha hg').2 (Bool.eq_false_iff.mp hends.2)
  | request caller => cases he
  | connected g => cases he
  | sessionShut g => cases he
  | told g => cases he
  | sessionClosed g => cases he
  | close => cases he

/-- Callers wait for the attempt of a generation. -/
def Waits (c : Connector) (g : Nat) (callers : List Nat) : Prop :=
  ∃ a ∈ c.running, a.generation = g ∧ callers <+: a.callers

/-- The callers of the attempt in progress wait for it. -/
theorem waits_of_mem (ha : a ∈ c.running) : Waits c a.generation a.callers :=
  ⟨a, ha, rfl, List.prefix_rfl⟩

/-- Those that came first among them wait for it as well. -/
theorem Waits.of_front {g : Nat} {callers all : List Nat} (h : Waits c g all)
    (hall : callers <+: all) : Waits c g callers := by
  obtain ⟨a, ha, hg, hfront⟩ := h
  exact ⟨a, ha, hg, hall.trans hfront⟩

/-- A caller that asks while an attempt is in progress joins it, unless the connector has been
closed. -/
theorem Single.request_joins (h : Single c) (hopen : c.isClosed = false) (ha : a ∈ c.running)
    (caller : Nat) :
    c.request caller =
      ({ c with running := [{ a with callers := a.callers ++ [caller] }] }, []) := by
  have hfound := h.attempt?_self ha
  have hconnecting := (h.running_eq hfound).2.2.2 hopen
  rw [Connector.request, if_neg (Bool.eq_false_iff.mp hopen), hconnecting]
  dsimp only
  rw [h.modifyAttempt_eq hfound, hconnecting]

/-- A closed connector refuses a caller. -/
theorem request_of_isClosed (hclosed : c.isClosed = true) (caller : Nat) :
    c.request caller = (c, [.answer caller (.error (.alreadyClosed .connector))]) := by
  rw [request, if_pos hclosed]

/-- The close of a session ends no attempt. -/
theorem running_sessionShut (c : Connector) (g : Nat) :
    (c.sessionShut g).running = c.running := by
  unfold Connector.sessionShut
  split
  · rfl
  · rfl

/-- Nor does hearing of it. -/
theorem running_told (c : Connector) (g : Nat) : (c.told g).running = c.running := by
  unfold Connector.told
  split
  · rfl
  · rfl

/-- A connector that is closed leaves its attempt in progress, and nobody is answered. -/
theorem running_close (c : Connector) :
    c.close.2.1.running = c.running ∧ answered c.close.2.2 = [] := by
  unfold Connector.close
  split
  · exact ⟨rfl, rfl⟩
  · refine ⟨rfl, ?_⟩
    dsimp only
    split
    · rfl
    · rfl

/-- An event that brings the attempt in progress no outcome lets its callers wait on, and answers
nobody but a caller that asks. -/
theorem Single.continues (h : Single c) (ha : a ∈ c.running) {e : ConnectorEvent}
    (he : c.outcome? a e = none) :
    Waits (c.step e).1 a.generation a.callers ∧
      ∀ answer ∈ answered (c.step e).2, e = .request answer.1 := by
  have hnobody : ∀ answer ∈ answered [], e = .request answer.1 := fun _ hanswer =>
    absurd hanswer List.not_mem_nil
  have hkept : ∀ {c' : Connector}, c'.running = c.running → Waits c' a.generation a.callers :=
    fun hrunning => waits_of_mem (hrunning ▸ ha)
  cases e with
  | request caller =>
    cases hclosed : c.isClosed with
    | true =>
      rw [Connector.step, request_of_isClosed hclosed]
      refine ⟨waits_of_mem ha, fun answer hanswer => ?_⟩
      obtain rfl := List.mem_singleton.mp hanswer
      rfl
    | false =>
      rw [Connector.step, h.request_joins hclosed ha]
      exact ⟨⟨_, List.mem_cons_self, rfl, List.prefix_append _ _⟩, hnobody⟩
  | connected g =>
    rw [Connector.step, h.connected_eq ha]
    refine ⟨?_, hnobody⟩
    dsimp only
    split
    · exact ⟨_, List.mem_cons_self, rfl, List.prefix_rfl⟩
    · exact waits_of_mem ha
  | settle g =>
    rw [Connector.step, h.settle_eq ha,
      if_neg fun hends => Option.some_ne_none _ ((if_pos hends).symm.trans he)]
    exact ⟨waits_of_mem ha, hnobody⟩
  | succeed g =>
    rw [Connector.step, h.succeed_eq ha,
      if_neg fun hends => Option.some_ne_none _ ((if_pos hends).symm.trans he)]
    exact ⟨waits_of_mem ha, hnobody⟩
  | fail g reason =>
    rw [Connector.step, h.fail_eq ha,
      if_neg fun hends => Option.some_ne_none _ ((if_pos hends).symm.trans he)]
    exact ⟨waits_of_mem ha, hnobody⟩
  | sessionShut g => exact ⟨hkept (running_sessionShut c g), hnobody⟩
  | told g => exact ⟨hkept (running_told c g), hnobody⟩
  | sessionClosed g =>
    exact ⟨hkept ((running_told _ g).trans (running_sessionShut c g)), hnobody⟩
  | close =>
    refine ⟨hkept (running_close c).1, fun answer hanswer => ?_⟩
    rw [Connector.step, (running_close c).2] at hanswer
    exact absurd hanswer List.not_mem_nil

/-- What becomes in a run of callers that wait for the attempt of a generation. -/
structure Served (c : Connector) (g : Nat) (callers : List Nat) (events : List ConnectorEvent) :
    Prop where
  /-- While nothing brings the attempt its outcome, they wait for it. -/
  waits : c.outcomeIn? g events = none → Waits (c.run events).1 g callers
  /-- Once something has, each of them has been given that outcome. -/
  shares : ∀ outcome, c.outcomeIn? g events = some outcome →
    (callers.map fun caller => (caller, outcome)).Sublist (answered (c.run events).2)

/-- Callers that wait for an attempt are served in every run. -/
theorem Waits.served (hsingle : Single c) {g : Nat} {callers : List Nat} (h : Waits c g callers)
    (events : List ConnectorEvent) : Served c g callers events := by
  induction events generalizing c with
  | nil => exact ⟨fun _ => h, fun _ hsome => absurd hsome.symm (Option.some_ne_none _)⟩
  | cons e rest ih =>
    obtain ⟨a, ha, rfl, hfront⟩ := h
    have hanswered : answered (c.run (e :: rest)).2 =
        answered (c.step e).2 ++ answered ((c.step e).1.run rest).2 := answered_append _ _
    have houtcome : c.outcomeIn? a.generation (e :: rest) =
        (c.outcome? a e).or ((c.step e).1.outcomeIn? a.generation rest) := by
      rw [outcomeIn?, hsingle.attempt?_self ha]
      rfl
    cases he : c.outcome? a e with
    | none =>
      have hwaits := (hsingle.continues ha he).1.of_front hfront
      obtain ⟨hrest, hshares⟩ := ih (hsingle.step e) hwaits
      rw [he, Option.none_or] at houtcome
      refine ⟨fun hnone => hrest (houtcome.symm.trans hnone), fun outcome hsome => ?_⟩
      rw [hanswered]
      refine (hshares outcome (houtcome.symm.trans hsome)).trans ?_
      exact List.sublist_append_right _ _
    | some outcome =>
      rw [he, Option.some_or] at houtcome
      refine ⟨fun hnone => absurd (houtcome.symm.trans hnone) (Option.some_ne_none _), ?_⟩
      intro outcome' hsome
      obtain rfl := Option.some.inj (houtcome.symm.trans hsome)
      rw [hanswered, (hsingle.ends ha he).answers]
      exact (hfront.sublist.map _).trans (List.sublist_append_left _ _)

/-- Where there is neither an attempt nor a session, a caller that asks starts an attempt. -/
theorem Single.request_starts (h : Single c) (hopen : c.isClosed = false)
    (hrunning : c.running = []) (hsessions : c.openSessions = [])
    (hallowed : c.attempts < c.settings.maxConnectAttempts) (caller : Nat) :
    (c.request caller).1.running = [⟨c.lastGeneration + 1, [caller], false⟩] ∧
      (c.request caller).2 = [.connect (c.lastGeneration + 1)] := by
  have hstarts : c.request caller = c.startAttempt caller := by
    rw [Connector.request, if_neg (Bool.eq_false_iff.mp hopen)]
    cases hphase : c.phase with
    | idle => rfl
    | connecting g => exact absurd hrunning (h.waiting hopen g hphase)
    | ready g =>
      dsimp only
      rw [isOpen, hsessions]
      rfl
  rw [hstarts, Connector.startAttempt, if_neg (Nat.not_le.mpr hallowed), hrunning]
  exact ⟨rfl, rfl⟩

/-- A caller for whom an attempt would start is given no session at once. -/
theorem not_answer_startAttempt (caller caller' g : Nat) :
    .answer caller' (.ok g) ∉ (c.startAttempt caller).2 := by
  unfold startAttempt
  intro hanswer
  split at hanswer
  · cases List.mem_singleton.mp hanswer
  · cases List.mem_singleton.mp hanswer

/-- A session is given to a caller at once when it is at hand and open. -/
theorem answer_mem_request_iff (caller g : Nat) :
    .answer caller (.ok g) ∈ (c.request caller).2 ↔
      c.isClosed = false ∧ c.phase = .ready g ∧ c.isOpen g = true := by
  constructor
  · intro hanswer
    unfold request at hanswer
    split at hanswer
    · cases List.mem_singleton.mp hanswer
    · rename_i hclosed
      refine ⟨Bool.eq_false_iff.mpr hclosed, ?_⟩
      split at hanswer
      · rename_i g' hphase
        split at hanswer
        · rename_i hopen
          cases List.mem_singleton.mp hanswer
          exact ⟨hphase, hopen⟩
        · exact absurd hanswer (not_answer_startAttempt _ _ _)
      · exact absurd hanswer List.not_mem_nil
      · exact absurd hanswer (not_answer_startAttempt _ _ _)
  · rintro ⟨hopen, hphase, hg⟩
    rw [request, if_neg (Bool.eq_false_iff.mp hopen), hphase]
    dsimp only
    rw [if_pos hg]
    exact List.mem_cons_self

/-- A session that closes is no longer open, and if it was at hand the connector is idle. -/
theorem sessionClosed_of_isOpen {g : Nat} (hg : c.isOpen g = true) :
    (c.sessionClosed g).isOpen g = false ∧
      (c.phase = .ready g → (c.sessionClosed g).phase = .idle) := by
  have huntold : (c.untold ++ [g]).contains g = true :=
    List.contains_iff_mem.mpr (List.mem_append_right _ List.mem_cons_self)
  rw [sessionClosed, sessionShut, if_pos hg, told, if_pos huntold]
  refine ⟨Bool.eq_false_iff.mpr fun hstill => ?_, fun hphase => if_pos hphase⟩
  have hmem := (List.mem_filter.mp (List.contains_iff_mem.mp hstill)).2
  rw [bne_self_eq_false] at hmem
  cases hmem

/-- What holds of a connector at every point of a run. -/
structure OneConnection (c : Connector) : Prop where
  /-- At most one attempt is in progress, one that is to be discarded included. -/
  attempts : c.running.length ≤ 1
  /-- At most one session that the connector made is open. -/
  sessions : c.openSessions.length ≤ 1
  /-- While an attempt is in progress no other session is open. -/
  exclusive : ∀ a ∈ c.running, ∀ g ∈ c.openSessions, g = a.generation ∧ a.isConnected = true
  /-- Where there is neither, a caller that asks starts an attempt and is the first to wait for it,
  if the limit allows one and the connector has not been closed. -/
  starts : c.isClosed = false → c.running = [] → c.openSessions = [] →
    c.attempts < c.settings.maxConnectAttempts → ∀ caller,
      (c.request caller).1.running = [⟨c.lastGeneration + 1, [caller], false⟩] ∧
        (c.request caller).2 = [.connect (c.lastGeneration + 1)]
  /-- Unless the connector has been closed, a caller that asks while an attempt is in progress
  starts none of its own. With the callers that asked before it waits in every run until something
  brings that attempt its outcome, and they are all given this outcome. -/
  joins : c.isClosed = false → ∀ a ∈ c.running, ∀ caller,
    (c.request caller).2 = [] ∧
      ∀ events, Served (c.request caller).1 a.generation (a.callers ++ [caller]) events
  /-- What brings the attempt in progress its outcome ends it, and exactly its callers are
  answered. -/
  ends : ∀ a ∈ c.running, ∀ e outcome, c.outcome? a e = some outcome →
    Ended (c.step e) a.callers outcome
  /-- Whatever else happens, its callers wait on, and nobody is answered but a caller that asks. -/
  continues : ∀ a ∈ c.running, ∀ e, c.outcome? a e = none →
    Waits (c.step e).1 a.generation a.callers ∧
      ∀ answer ∈ answered (c.step e).2, e = .request answer.1
  /-- A caller that asks a connector that has been closed is refused. -/
  refuses : c.isClosed = true → ∀ caller,
    c.request caller = (c, [.answer caller (.error (.alreadyClosed .connector))])
  /-- A session that a caller is given at once is the one at hand, and open; and such a session it
  is given. -/
  ready : ∀ caller g, .answer caller (.ok g) ∈ (c.request caller).2 ↔
    c.isClosed = false ∧ c.phase = .ready g ∧ c.isOpen g = true
  /-- The attempt or session at hand is of the generation started last. -/
  current : ∀ g, c.phase = .connecting g ∨ c.phase = .ready g → g = c.lastGeneration
  /-- A session that closes is no longer open, and if it was at hand the connector is idle. -/
  shuts : ∀ g, c.isOpen g = true →
    (c.sessionClosed g).isOpen g = false ∧
      (c.phase = .ready g → (c.sessionClosed g).phase = .idle)
  /-- The end of another session leaves the phase alone, when that session closes and when the
  connector is told. -/
  late : ∀ g, c.phase ≠ .ready g →
    (c.sessionShut g).phase = c.phase ∧ (c.told g).phase = c.phase

/-- **One connection at a time.** At every point of every run a connector has at most one attempt
in progress and at most one open session, its callers are all given the outcome of the attempt that
they find in progress, and the end of an earlier session changes nothing for a later one. -/
theorem run_oneConnection (settings : ClientSettings) (events : List ConnectorEvent) :
    OneConnection ((start settings).run events).1 := by
  have h : Single ((start settings).run events).1 := (single_start settings).run events
  generalize ((start settings).run events).1 = c at h
  constructor
  case attempts =>
    rcases h.running with hnone | ⟨a, ha, -⟩
    · rw [hnone]
      exact Nat.zero_le 1
    · rw [ha]
      exact Nat.le_refl 1
  case sessions =>
    rcases h.sessions with hnone | ⟨hone, -⟩
    · rw [hnone]
      exact Nat.zero_le 1
    · rw [hone]
      exact Nat.le_refl 1
  case exclusive => exact fun a ha g hg => h.exclusive ha hg
  case starts => exact h.request_starts
  case joins =>
    intro hopen a ha caller
    have hjoined := h.request_joins hopen ha caller
    refine ⟨congrArg Prod.snd hjoined, ?_⟩
    have hwaits : Waits (c.request caller).1 a.generation (a.callers ++ [caller]) := by
      rw [hjoined]
      exact ⟨_, List.mem_cons_self, rfl, List.prefix_rfl⟩
    exact hwaits.served (h.request caller)
  case ends => exact fun a ha e outcome he => h.ends ha he
  case continues => exact fun a ha e he => h.continues ha he
  case refuses => exact request_of_isClosed
  case ready => exact answer_mem_request_iff
  case current => exact h.current
  case shuts => exact fun g hg => sessionClosed_of_isOpen hg
  case late =>
    intro g hphase
    constructor
    · unfold sessionShut
      split
      · rfl
      · rfl
    · unfold told
      split
      · rfl
      · rfl

/-- A caller that asks while an attempt is in progress and does not get its outcome: the connector
has been closed, so the caller is refused, and the attempt fails for the caller that asked before.
-/
theorem joins_refused_when_closed :
    ((start .standard).run [.request 1, .close]).1.running = [⟨1, [1], false⟩] ∧
    ((start .standard).run [.request 1, .close, .request 2, .succeed 1]).2 =
      [.connect 1, .answer 2 (.error (.alreadyClosed .connector)), .closeSession 1,
        .answer 1 (.error (.connection "connector closed"))] ∧
    CallError.alreadyClosed .connector ≠ CallError.connection "connector closed" := by
  refine ⟨rfl, rfl, by decide⟩

/-- Two callers of one attempt share its failure, and a later one starts the next attempt. -/
example : ((start .standard).run [.request 1, .request 2, .fail 1 "refused", .request 3]).2 =
    [.connect 1, .answer 1 (.error (.connection "refused")),
      .answer 2 (.error (.connection "refused")), .connect 2] := rfl

end Connector

end RemoteCall
