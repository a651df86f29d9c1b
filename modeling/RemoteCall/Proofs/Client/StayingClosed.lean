import RemoteCall.Proofs.Client.OneConnection

/-!
# Closed connectors stay closed

Once a connector has been closed it is idle and refuses every caller, whatever still happens. An
attempt that was in progress may go on for a while, but nobody gets its session: when it ends, its
callers are given a failure and its session is closed. So a session is open afterwards only until it
is closed as the connector has ordered, or until the attempt that made it ends.
-/

namespace RemoteCall

namespace Connector

variable {c : Connector}

/-- A connector that has been closed and has since ordered things done. -/
structure Discarding (c : Connector) (ordered : List ConnectorEffect) : Prop where
  isClosed : c.isClosed = true
  phase : c.phase = .idle
  /-- An open session was made by the attempt in progress, or it has been ordered closed. -/
  sessions : ∀ g ∈ c.openSessions,
    (∃ a ∈ c.running, a.generation = g ∧ a.isConnected = true) ∨ .closeSession g ∈ ordered

/-- Whether an effect starts an attempt or gives a session to a caller. -/
def isConnecting : ConnectorEffect → Bool
  | .connect _ => true
  | .answer _ (.ok _) => true
  | _ => false

/-- Nothing that is done starts an attempt or gives a session to a caller. -/
def Declines (effects : List ConnectorEffect) : Prop := effects.any isConnecting = false

/-- Two stretches that decline are one that does. -/
theorem Declines.append {effects more : List ConnectorEffect} (h : Declines effects)
    (h' : Declines more) : Declines (effects ++ more) := by
  rw [Declines, List.any_append, h, h']
  rfl

/-- Telling callers of a failure gives them no session. -/
theorem declines_failures (callers : List Nat) (e : CallError) :
    Declines (callers.map fun caller => .answer caller (.error e)) := by
  rw [Declines, List.any_map]
  exact List.any_eq_false.mpr fun _ _ => Bool.false_ne_true

/-- What declines starts no attempt. -/
theorem Declines.connect_not_mem {effects : List ConnectorEffect} (h : Declines effects) (g : Nat) :
    .connect g ∉ effects :=
  fun hmem => List.any_eq_false.mp h _ hmem rfl

/-- What declines gives nobody a session. -/
theorem Declines.session_not_mem {effects : List ConnectorEffect} (h : Declines effects)
    (caller g : Nat) : .answer caller (.ok g) ∉ effects :=
  fun hmem => List.any_eq_false.mp h _ hmem rfl

variable {ordered : List ConnectorEffect}

/-- What has been ordered stays so. -/
theorem Discarding.append (h : Discarding c ordered) (more : List ConnectorEffect) :
    Discarding c (ordered ++ more) where
  isClosed := h.isClosed
  phase := h.phase
  sessions := fun g hg => (h.sessions g hg).imp_right (List.mem_append_left more)

/-- A closed connector cannot be closed again. -/
theorem Discarding.close_eq (h : Discarding c ordered) :
    c.close = (.error (.alreadyClosed .connector), c, []) := by
  rw [Connector.close, if_pos h.isClosed]

/-- The attempt in progress gets its connection. -/
theorem Discarding.connected (h : Discarding c ordered) (hsingle : Single c) (g : Nat) :
    Discarding (c.connected g).1 ordered ∧ (c.connected g).2 = [] := by
  unfold Connector.connected
  split
  · rename_i generation callers ha
    obtain ⟨hrunning, hg, -⟩ := hsingle.running_eq ha
    have hsessions := (hsingle.unconnected _ (hrunning ▸ List.mem_cons_self) rfl).1
    rw [hsingle.modifyAttempt_eq ha, hsessions]
    refine ⟨⟨h.isClosed, h.phase, fun g' hg' => .inl ⟨_, List.mem_cons_self, ?_, rfl⟩⟩, rfl⟩
    exact hg.trans (List.mem_singleton.mp hg').symm
  · exact ⟨h, rfl⟩

/-- The attempt in progress ends with a session: the session is ordered closed. -/
theorem Discarding.settle (h : Discarding c ordered) (hsingle : Single c) (g : Nat) :
    Discarding (c.settle g).1 (ordered ++ (c.settle g).2) ∧ Declines (c.settle g).2 := by
  rcases hsingle.settle_cases g with hsame | ⟨a, ha, -, -, hsettled⟩
  · rw [hsame]
    exact ⟨h.append [], rfl⟩
  · rw [hsettled, Connector.settled, if_pos h.isClosed]
    refine ⟨⟨h.isClosed, h.phase, fun g' hg' => .inr ?_⟩, declines_failures _ _⟩
    rw [(hsingle.exclusive ha hg').1]
    exact List.mem_append_right _ List.mem_cons_self

/-- The attempt in progress ends without a session. -/
theorem Discarding.fail (h : Discarding c ordered) (hsingle : Single c) (g : Nat)
    (reason : String) :
    Discarding (c.fail g reason).1 (ordered ++ (c.fail g reason).2) ∧
      Declines (c.fail g reason).2 := by
  unfold Connector.fail
  split
  · rename_i generation callers ha
    obtain ⟨hrunning, -⟩ := hsingle.running_eq ha
    have hsessions := (hsingle.unconnected _ (hrunning ▸ List.mem_cons_self) rfl).1
    rw [hsingle.endAttempt_eq ha, h.phase, hsessions]
    refine ⟨⟨h.isClosed, ?_, fun _ hg' => absurd hg' List.not_mem_nil⟩, declines_failures _ _⟩
    dsimp only
    exact ite_self _
  · exact ⟨h.append [], rfl⟩

/-- A session closes. -/
theorem Discarding.sessionShut (h : Discarding c ordered) (g : Nat) :
    Discarding (c.sessionShut g) ordered := by
  unfold Connector.sessionShut
  split
  · exact ⟨h.isClosed, h.phase, fun g' hg' => h.sessions g' (List.mem_filter.mp hg').1⟩
  · exact h

/-- The connector is told that a session has closed. -/
theorem Discarding.told (h : Discarding c ordered) (g : Nat) : Discarding (c.told g) ordered := by
  unfold Connector.told
  split
  · refine ⟨h.isClosed, ?_, h.sessions⟩
    dsimp only
    rw [h.phase, if_neg ConnectorPhase.noConfusion]
  · exact h

/-- Whatever happens to a closed connector, it stays closed and gives nobody a session. -/
theorem Discarding.step (h : Discarding c ordered) (hsingle : Single c) (e : ConnectorEvent) :
    Discarding (c.step e).1 (ordered ++ (c.step e).2) ∧ Declines (c.step e).2 := by
  cases e with
  | request caller =>
    rw [Connector.step, request_of_isClosed h.isClosed]
    exact ⟨h.append _, rfl⟩
  | connected g =>
    obtain ⟨hconnected, heffects⟩ := h.connected hsingle g
    rw [Connector.step, heffects]
    exact ⟨hconnected.append [], rfl⟩
  | settle g => exact h.settle hsingle g
  | succeed g =>
    obtain ⟨hconnected, heffects⟩ := h.connected hsingle g
    rw [Connector.step, Connector.succeed]
    dsimp only
    rw [heffects, List.nil_append]
    exact hconnected.settle (hsingle.connected g) g
  | fail g reason => exact h.fail hsingle g reason
  | sessionShut g => exact ⟨(h.sessionShut g).append [], rfl⟩
  | told g => exact ⟨(h.told g).append [], rfl⟩
  | sessionClosed g => exact ⟨((h.sessionShut g).told g).append [], rfl⟩
  | close =>
    rw [Connector.step, h.close_eq]
    exact ⟨h.append [], rfl⟩

/-- So it is in a run. -/
theorem Discarding.run (h : Discarding c ordered) (hsingle : Single c)
    (events : List ConnectorEvent) :
    Discarding (c.run events).1 (ordered ++ (c.run events).2) ∧ Declines (c.run events).2 := by
  induction events generalizing c ordered with
  | nil => exact ⟨h.append [], rfl⟩
  | cons e rest ih =>
    obtain ⟨hstep, hdeclines⟩ := h.step hsingle e
    obtain ⟨hrun, hdeclines'⟩ := ih hstep (hsingle.step e)
    rw [List.append_assoc] at hrun
    exact ⟨hrun, hdeclines.append hdeclines'⟩

/-- A connector that is closed orders the session at hand closed. -/
theorem closeSession_mem_close (hopen : c.isClosed = false) {g : Nat}
    (hphase : c.phase = .ready g) : .closeSession g ∈ c.close.2.2 := by
  rw [Connector.close, if_neg (Bool.eq_false_iff.mp hopen), hphase]
  exact List.mem_cons_self

/-- From then on it only discards. -/
theorem discarding_close (hsingle : Single c) (hopen : c.isClosed = false) :
    Discarding c.close.2.1 c.close.2.2 := by
  have hordered := @closeSession_mem_close c hopen
  rw [Connector.close, if_neg (Bool.eq_false_iff.mp hopen)] at hordered ⊢
  refine ⟨rfl, rfl, fun g hg => ?_⟩
  rcases hsingle.sessions with hnone | ⟨hone, -, hphase⟩
  · dsimp only at hg
    rw [hnone] at hg
    exact absurd hg List.not_mem_nil
  · dsimp only at hg
    rw [hone] at hg
    obtain rfl := List.mem_singleton.mp hg
    rcases hphase hopen with hready | ⟨a, ha, hconnected⟩
    · exact .inr (hordered hready)
    · refine .inl ⟨a, ha, ?_, hconnected⟩
      rcases hsingle.running with hnone | ⟨b, hb, hlast, -⟩
      · rw [hnone] at ha
        exact absurd ha List.not_mem_nil
      · rw [hb] at ha
        obtain rfl := List.mem_singleton.mp ha
        exact hlast

/-- What brings an attempt of a closed connector its outcome brings it a failure. -/
theorem Discarding.outcome?_failure (h : Discarding c ordered) {a : ConnectAttempt}
    {e : ConnectorEvent} {outcome : Except CallError Nat} (he : c.outcome? a e = some outcome) :
    ∃ reason, outcome = .error (.connection reason) := by
  have hsession : ∀ g, c.sessionOutcome g = .error (.connection "connector closed") := fun _ =>
    if_pos h.isClosed
  cases e with
  | settle g =>
    obtain ⟨-, houtcome⟩ := Option.ite_none_right_eq_some.mp he
    exact ⟨_, (Option.some.inj houtcome).symm.trans (hsession g)⟩
  | succeed g =>
    obtain ⟨-, houtcome⟩ := Option.ite_none_right_eq_some.mp he
    exact ⟨_, (Option.some.inj houtcome).symm.trans (hsession g)⟩
  | fail g reason =>
    obtain ⟨-, houtcome⟩ := Option.ite_none_right_eq_some.mp he
    exact ⟨reason, (Option.some.inj houtcome).symm⟩
  | request caller => cases he
  | connected g => cases he
  | sessionShut g => cases he
  | told g => cases he
  | sessionClosed g => cases he
  | close => cases he

/-- So does every run. -/
theorem Discarding.outcomeIn?_failure (h : Discarding c ordered) (hsingle : Single c) {g : Nat}
    {events : List ConnectorEvent} {outcome : Except CallError Nat}
    (he : c.outcomeIn? g events = some outcome) :
    ∃ reason, outcome = .error (.connection reason) := by
  induction events generalizing c ordered with
  | nil => cases he
  | cons e rest ih =>
    rcases Option.or_eq_some_iff.mp he with hfirst | ⟨-, hlater⟩
    · obtain ⟨a, -, houtcome⟩ := Option.bind_eq_some_iff.mp hfirst
      exact h.outcome?_failure houtcome
    · exact ih (h.step hsingle e).1 (hsingle.step e) hlater

end Connector

end RemoteCall
