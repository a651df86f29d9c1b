import RemoteCall.Client.Connector

/-!
# What a connector is connected to

Attempts end, sessions close and connectors are closed in any order, and a connector can hear of the
end of a session when it has long gone on to another. It compares generations before it changes its
phase, and that is enough: an attempt starts only when no other is in progress and no session is
open. An attempt that the connector no longer waits for can be in progress, and a session that it no
longer has at hand can be open, only after the connector has been closed, when no attempt starts.

So what an event does to the attempt in progress can be said in one equation for each event, and
what becomes of its callers is read from these equations.
-/

namespace RemoteCall

namespace Connector

/-- A connector has at most one attempt in progress and one open session, both of the generation
that was started last. -/
structure Single (c : Connector) : Prop where
  /-- An attempt in progress is what the connector waits for, unless it has been closed. -/
  running : c.running = [] ∨ ∃ a, c.running = [a] ∧ a.generation = c.lastGeneration ∧
    (c.isClosed = false → c.phase = .connecting a.generation)
  /-- What the connector waits for is in progress, unless it has been closed. -/
  waiting : c.isClosed = false → ∀ g, c.phase = .connecting g → c.running ≠ []
  /-- An open session is at hand, or its attempt is not settled, or the connector has been closed.
  -/
  sessions : c.openSessions = [] ∨ c.openSessions = [c.lastGeneration] ∧
    c.lastGeneration ∉ c.untold ∧
    (c.isClosed = false →
      c.phase = .ready c.lastGeneration ∨ ∃ a ∈ c.running, a.isConnected = true)
  /-- While an attempt has no connection, no session is open, and its own has never been. -/
  unconnected : ∀ a ∈ c.running, a.isConnected = false →
    c.openSessions = [] ∧ a.generation ∉ c.untold
  /-- Sessions that have closed were made by attempts. -/
  made : ∀ g ∈ c.untold, g ≤ c.lastGeneration
  /-- What is at hand was started last. -/
  current : ∀ g, c.phase = .connecting g ∨ c.phase = .ready g → g = c.lastGeneration

variable {c : Connector}

/-- A connector that has not been asked has neither attempt nor session. -/
theorem single_start (settings : ClientSettings) : Single (start settings) where
  running := .inl rfl
  waiting := fun _ _ hg => ConnectorPhase.noConfusion hg
  sessions := .inl rfl
  unconnected := fun _ ha => absurd ha List.not_mem_nil
  made := fun _ hg => absurd hg List.not_mem_nil
  current := fun _ hg => by rcases hg with hg | hg <;> cases hg

/-- The attempt of a generation that is found is the only one. -/
theorem Single.running_eq (h : Single c) {g : Nat} {a : ConnectAttempt}
    (ha : c.attempt? g = some a) :
    c.running = [a] ∧ a.generation = g ∧ c.lastGeneration = g ∧
      (c.isClosed = false → c.phase = .connecting g) := by
  have hmem := List.mem_of_find?_eq_some ha
  have hkey := List.find?_some ha
  have hg : a.generation = g := beq_iff_eq.mp hkey
  rcases h.running with hnone | ⟨b, hb, hlast, hphase⟩
  · rw [hnone] at hmem
    exact absurd hmem List.not_mem_nil
  · rw [hb] at hmem
    obtain rfl := List.mem_singleton.mp hmem
    exact ⟨hb, hg, hlast.symm.trans hg, hg ▸ hphase⟩

/-- None is found where none is in progress. -/
theorem attempt?_eq_none (hnone : c.running = []) (g : Nat) : c.attempt? g = none := by
  rw [attempt?, hnone, List.find?_nil]

/-- The attempt in progress is the only one, and it is found by its generation. -/
theorem Single.attempt?_eq (h : Single c) {a : ConnectAttempt} (ha : a ∈ c.running) (g : Nat) :
    c.attempt? g = if a.generation = g then some a else none := by
  rcases h.running with hnone | ⟨b, hb, -⟩
  · rw [hnone] at ha
    exact absurd ha List.not_mem_nil
  · rw [hb] at ha
    obtain rfl := List.mem_singleton.mp ha
    rw [attempt?, hb]
    split
    · rename_i hg
      exact List.find?_cons_of_pos (beq_iff_eq.mpr hg)
    · rename_i hg
      exact List.find?_cons_of_neg fun hg' => hg (beq_iff_eq.mp hg')

/-- The attempt in progress is found. -/
theorem Single.attempt?_self (h : Single c) {a : ConnectAttempt} (ha : a ∈ c.running) :
    c.attempt? a.generation = some a := by
  rw [h.attempt?_eq ha, if_pos rfl]

/-- An attempt that is found has ended afterwards, and there is no other. -/
theorem Single.endAttempt_eq (h : Single c) {g : Nat} {a : ConnectAttempt}
    (ha : c.attempt? g = some a) : c.endAttempt g = { c with running := [] } := by
  obtain ⟨hrunning, hg, -⟩ := h.running_eq ha
  rw [endAttempt, hrunning, List.filter_cons_of_neg, List.filter_nil]
  rw [hg, bne_self_eq_false]
  exact Bool.false_ne_true

/-- An attempt that is found is changed, and there is no other. -/
theorem Single.modifyAttempt_eq (h : Single c) {g : Nat} {a : ConnectAttempt}
    (ha : c.attempt? g = some a) (f : ConnectAttempt → ConnectAttempt) :
    c.modifyAttempt g f = { c with running := [f a] } := by
  obtain ⟨hrunning, hg, -⟩ := h.running_eq ha
  rw [modifyAttempt, hrunning, List.map_singleton, if_pos (beq_iff_eq.mpr hg)]

/-- A connector that waits for no attempt and has no open session at hand has neither. -/
theorem Single.resting (h : Single c) (hopen : c.isClosed = false)
    (hconnecting : ∀ g, c.phase ≠ .connecting g)
    (hready : ∀ g, c.phase = .ready g → c.isOpen g = false) :
    c.running = [] ∧ c.openSessions = [] := by
  have hrunning : c.running = [] := by
    rcases h.running with hnone | ⟨a, -, -, hphase⟩
    · exact hnone
    · exact absurd (hphase hopen) (hconnecting _)
  refine ⟨hrunning, ?_⟩
  rcases h.sessions with hnone | ⟨hone, -, hphase⟩
  · exact hnone
  · rcases hphase hopen with hphase | ⟨a, ha, -⟩
    · have hshut := hready _ hphase
      rw [isOpen, hone, List.contains_iff_mem.mpr List.mem_cons_self] at hshut
      cases hshut
    · rw [hrunning] at ha
      exact absurd ha List.not_mem_nil

/-- An attempt starts when there is no other and no session. -/
theorem Single.startAttempt (h : Single c) (hrunning : c.running = [])
    (hsessions : c.openSessions = []) (caller : Nat) : Single (c.startAttempt caller).1 := by
  unfold Connector.startAttempt
  split
  · exact h
  · constructor
    case running => exact .inr ⟨_, by rw [hrunning]; rfl, rfl, fun _ => rfl⟩
    case waiting => exact fun _ _ _ => List.append_ne_nil_of_right_ne_nil _ (List.cons_ne_nil _ _)
    case sessions => exact .inl hsessions
    case unconnected =>
      intro a ha _
      rw [hrunning] at ha
      obtain rfl := List.mem_singleton.mp ha
      refine ⟨hsessions, fun hmem => ?_⟩
      exact Nat.not_succ_le_self _ (h.made _ hmem)
    case made =>
      intro g hg
      exact Nat.le_succ_of_le (h.made g hg)
    case current =>
      rintro g (hg | hg)
      · exact (ConnectorPhase.connecting.inj hg).symm
      · cases hg

/-- Nothing is changed about an attempt that is not in progress. -/
theorem modifyAttempt_of_none {g : Nat} (ha : c.attempt? g = none)
    (f : ConnectAttempt → ConnectAttempt) : c.modifyAttempt g f = c := by
  have hnone := List.find?_eq_none.mp ha
  have hsame : c.running.map (fun a => if a.generation == g then f a else a) = c.running := by
    refine (List.map_congr_left fun a ha => if_neg (hnone a ha)).trans ?_
    exact List.map_id' _
  rw [modifyAttempt, hsame]

/-- A caller joins the attempt that the connector waits for. -/
theorem Single.join (h : Single c) (hopen : c.isClosed = false) {g : Nat}
    (hphase : c.phase = .connecting g) (caller : Nat) :
    Single (c.modifyAttempt g fun a => { a with callers := a.callers ++ [caller] }) := by
  cases ha : c.attempt? g with
  | none => exact (modifyAttempt_of_none ha _).symm ▸ h
  | some a =>
    obtain ⟨hrunning, hg, hlast, -⟩ := h.running_eq ha
    rw [h.modifyAttempt_eq ha]
    constructor
    case running => exact .inr ⟨_, rfl, hg.trans hlast.symm, fun _ => hphase.trans (hg ▸ rfl)⟩
    case waiting => exact fun _ _ _ => List.cons_ne_nil _ _
    case sessions =>
      rcases h.sessions with hnone | ⟨hone, huntold, hready⟩
      · exact .inl hnone
      · refine .inr ⟨hone, huntold, fun _ => ?_⟩
        rcases hready hopen with hready | ⟨b, hb, hconnected⟩
        · rw [hphase] at hready
          cases hready
        · rw [hrunning] at hb
          obtain rfl := List.mem_singleton.mp hb
          exact .inr ⟨_, List.mem_cons_self, hconnected⟩
    case unconnected =>
      intro b hb hnot
      obtain rfl := List.mem_singleton.mp hb
      exact h.unconnected a (hrunning ▸ List.mem_cons_self) hnot
    case made => exact h.made
    case current => exact h.current

/-- A caller asks. -/
theorem Single.request (h : Single c) (caller : Nat) : Single (c.request caller).1 := by
  unfold Connector.request
  split
  · exact h
  · rename_i hclosed
    have hopen : c.isClosed = false := Bool.eq_false_iff.mpr hclosed
    split
    · rename_i g hphase
      split
      · exact h
      · rename_i hshut
        have hresting := h.resting hopen (fun g' hg' => by rw [hphase] at hg'; cases hg')
          fun g' hg' => by
            rw [hphase] at hg'
            cases hg'
            exact Bool.eq_false_iff.mpr hshut
        exact h.startAttempt hresting.1 hresting.2 caller
    · rename_i g hphase
      exact h.join hopen hphase caller
    · rename_i hphase
      have hresting := h.resting hopen (fun g hg => by rw [hphase] at hg; cases hg)
        fun g hg => by rw [hphase] at hg; cases hg
      exact h.startAttempt hresting.1 hresting.2 caller

/-- A connection is there. -/
theorem Single.connected (h : Single c) (g : Nat) : Single (c.connected g).1 := by
  unfold Connector.connected
  split
  · rename_i generation callers ha
    obtain ⟨hrunning, -, hlast, hphase⟩ := h.running_eq ha
    obtain ⟨hsessions, huntold⟩ := h.unconnected _ (hrunning ▸ List.mem_cons_self) rfl
    rw [h.modifyAttempt_eq ha, hsessions]
    obtain rfl : generation = g := (h.running_eq ha).2.1
    constructor
    case running => exact .inr ⟨_, rfl, hlast.symm, hphase⟩
    case waiting => exact fun _ _ _ => List.cons_ne_nil _ _
    case sessions =>
      refine .inr ⟨?_, ?_, fun _ => .inr ⟨_, List.mem_cons_self, rfl⟩⟩
      · dsimp only
        rw [hlast, List.nil_append]
      · dsimp only
        rw [hlast]
        exact huntold
    case unconnected =>
      intro b hb hnot
      obtain rfl := List.mem_singleton.mp hb
      cases hnot
    case made => exact h.made
    case current => exact h.current
  · exact h

/-- What becomes of a connector, and what it does, when the attempt in progress ends with its
session. -/
def settled (c : Connector) (a : ConnectAttempt) : Connector × List ConnectorEffect :=
  if c.isClosed then
    ({ c with running := [] },
      .closeSession a.generation ::
        a.callers.map fun caller => .answer caller (.error (.connection "connector closed")))
  else
    ({ c with running := [], phase := .ready a.generation, attempts := 0 },
      a.callers.map fun caller => .answer caller (.ok a.generation))

/-- The attempt in progress is settled when it has its connection, and no other is. -/
theorem Single.settle_eq (h : Single c) {a : ConnectAttempt} (ha : a ∈ c.running) (g : Nat) :
    c.settle g = if a.generation = g ∧ a.isConnected = true then c.settled a else (c, []) := by
  rw [Connector.settle, h.attempt?_eq ha]
  by_cases hg : a.generation = g
  · have hfound : c.attempt? g = some a := by rw [h.attempt?_eq ha, if_pos hg]
    have hphase := (h.running_eq hfound).2.2.2
    have hended := h.endAttempt_eq hfound
    obtain ⟨generation, callers, isConnected⟩ := a
    obtain rfl : generation = g := hg
    rw [if_pos rfl]
    cases isConnected with
    | false => exact (if_neg fun hends => Bool.noConfusion hends.2).symm
    | true =>
      dsimp only
      rw [hended]
      refine Eq.trans ?_ (if_pos ⟨rfl, rfl⟩).symm
      rw [settled]
      cases hclosed : c.isClosed with
      | true => rw [if_neg fun hcurrent => Bool.noConfusion hcurrent.2, if_pos rfl]
      | false => rw [if_pos ⟨hphase hclosed, Bool.not_false⟩, if_neg Bool.false_ne_true]
  · rw [if_neg hg, if_neg fun hends => hg hends.1]

/-- The attempt in progress gets its connection once, and no other does. -/
theorem Single.connected_eq (h : Single c) {a : ConnectAttempt} (ha : a ∈ c.running) (g : Nat) :
    c.connected g =
      (if a.generation = g ∧ a.isConnected = false then
        { c with running := [{ a with isConnected := true }], openSessions := [g] }
      else c, []) := by
  rw [Connector.connected, h.attempt?_eq ha]
  by_cases hg : a.generation = g
  · have hfound : c.attempt? g = some a := by rw [h.attempt?_eq ha, if_pos hg]
    have hmodified := h.modifyAttempt_eq hfound fun a => { a with isConnected := true }
    have hunconnected := h.unconnected a ha
    obtain ⟨generation, callers, isConnected⟩ := a
    obtain rfl : generation = g := hg
    rw [if_pos rfl]
    cases isConnected with
    | true => rw [if_neg fun hends => Bool.noConfusion hends.2]
    | false =>
      dsimp only
      rw [hmodified, (hunconnected rfl).1, if_pos ⟨rfl, rfl⟩]
      rfl
  · rw [if_neg hg, if_neg fun hends => hg hends.1]

/-- The attempt in progress ends with its session at once, and no other does. -/
theorem Single.succeed_eq (h : Single c) {a : ConnectAttempt} (ha : a ∈ c.running) (g : Nat) :
    c.succeed g =
      if a.generation = g then
        { c with openSessions := if a.isConnected then c.openSessions else [g] }.settled a
      else (c, []) := by
  have hsingle := h.connected g
  rw [Connector.succeed]
  rw [h.connected_eq ha] at hsingle ⊢
  dsimp only at hsingle ⊢
  rw [List.nil_append]
  by_cases hg : a.generation = g
  · rw [if_pos hg]
    cases hconnected : a.isConnected with
    | true =>
      rw [if_neg fun hends => Bool.noConfusion hends.2, h.settle_eq ha,
        if_pos ⟨hg, hconnected⟩]
      rfl
    | false =>
      rw [hconnected, if_pos ⟨hg, rfl⟩] at hsingle
      rw [if_pos ⟨hg, rfl⟩, hsingle.settle_eq List.mem_cons_self, if_pos ⟨hg, rfl⟩]
      rfl
  · rw [if_neg fun hends => hg hends.1, if_neg hg, h.settle_eq ha, if_neg fun hends => hg hends.1]

/-- Without the attempt nothing comes of a connection. -/
theorem succeed_of_none {g : Nat} (ha : c.attempt? g = none) : c.succeed g = (c, []) := by
  rw [Connector.succeed, Connector.connected, ha]
  dsimp only
  rw [Connector.settle, ha]
  rfl

/-- The attempt in progress fails while it has no connection, and no other does. -/
theorem Single.fail_eq (h : Single c) {a : ConnectAttempt} (ha : a ∈ c.running) (g : Nat)
    (reason : String) :
    c.fail g reason =
      if a.generation = g ∧ a.isConnected = false then
        ({ c with running := [], phase := if c.phase = .connecting g then .idle else c.phase },
          a.callers.map fun caller => .answer caller (.error (.connection reason)))
      else (c, []) := by
  rw [Connector.fail, h.attempt?_eq ha]
  by_cases hg : a.generation = g
  · have hended := h.endAttempt_eq (h.attempt?_self ha)
    obtain ⟨generation, callers, isConnected⟩ := a
    obtain rfl : generation = g := hg
    rw [if_pos rfl]
    cases isConnected with
    | true => exact (if_neg fun hends => Bool.noConfusion hends.2).symm
    | false =>
      dsimp only
      rw [hended]
      exact (if_pos ⟨rfl, rfl⟩).symm
  · rw [if_neg hg]
    exact (if_neg fun hends => hg hends.1).symm

/-- Whatever is settled is the attempt in progress, which has its connection. -/
theorem Single.settle_cases (h : Single c) (g : Nat) :
    c.settle g = (c, []) ∨ ∃ a ∈ c.running, a.generation = g ∧ a.isConnected = true ∧
      c.settle g = c.settled a := by
  rcases h.running with hnone | ⟨a, hone, -⟩
  · rw [Connector.settle, attempt?_eq_none hnone]
    exact .inl rfl
  · have ha : a ∈ c.running := hone ▸ List.mem_cons_self
    rw [h.settle_eq ha]
    split
    · rename_i hends
      exact .inr ⟨a, ha, hends.1, hends.2, rfl⟩
    · exact .inl rfl

/-- The attempt in progress ends with its session. -/
theorem Single.settled (h : Single c) {a : ConnectAttempt} (ha : a ∈ c.running) :
    Single (c.settled a).1 := by
  have hlast := (h.running_eq (h.attempt?_self ha)).2.2.1
  unfold Connector.settled
  cases hclosed : c.isClosed with
  | true =>
    rw [if_pos rfl]
    constructor
    case running => exact .inl rfl
    case waiting => exact fun hopen => Bool.noConfusion hopen
    case sessions =>
      rcases h.sessions with hnone | ⟨hone, huntold, -⟩
      · exact .inl hnone
      · exact .inr ⟨hone, huntold, fun hopen => Bool.noConfusion hopen⟩
    case unconnected => exact fun _ hb => absurd hb List.not_mem_nil
    case made => exact h.made
    case current => exact h.current
  | false =>
    rw [if_neg Bool.false_ne_true]
    constructor
    case running => exact .inl rfl
    case waiting => exact fun _ _ hg => ConnectorPhase.noConfusion hg
    case sessions =>
      rcases h.sessions with hnone | ⟨hone, huntold, -⟩
      · exact .inl hnone
      · exact .inr ⟨hone, huntold, fun _ => .inl (hlast ▸ rfl)⟩
    case unconnected => exact fun _ hb => absurd hb List.not_mem_nil
    case made => exact h.made
    case current =>
      rintro g (hg | hg)
      · cases hg
      · exact (ConnectorPhase.ready.inj hg).symm.trans hlast.symm

/-- An attempt that has its session ends. -/
theorem Single.settle (h : Single c) (g : Nat) : Single (c.settle g).1 := by
  rcases h.settle_cases g with hsame | ⟨a, ha, -, -, hsettled⟩
  · rw [hsame]
    exact h
  · rw [hsettled]
    exact h.settled ha

/-- An attempt ends without a session. -/
theorem Single.fail (h : Single c) (g : Nat) (reason : String) : Single (c.fail g reason).1 := by
  rcases h.running with hnone | ⟨a, hone, -, hconnecting⟩
  · rw [Connector.fail, attempt?_eq_none hnone]
    exact h
  · have ha : a ∈ c.running := hone ▸ List.mem_cons_self
    rw [h.fail_eq ha]
    split
    · rename_i hfails
      obtain ⟨rfl, hnot⟩ := hfails
      constructor
      case running => exact .inl rfl
      case waiting =>
        intro hopen g hg
        dsimp only at hg
        rw [if_pos (hconnecting hopen)] at hg
        cases hg
      case sessions => exact .inl (h.unconnected a ha hnot).1
      case unconnected => exact fun _ hb => absurd hb List.not_mem_nil
      case made => exact h.made
      case current =>
        intro g' hg'
        dsimp only at hg'
        split at hg'
        · rcases hg' with hg' | hg' <;> cases hg'
        · exact h.current g' hg'
    · exact h

/-- A session closes. -/
theorem Single.sessionShut (h : Single c) (g : Nat) : Single (c.sessionShut g) := by
  unfold Connector.sessionShut
  split
  · rename_i hg
    rcases h.sessions with hnone | ⟨hone, huntold, hphase⟩
    · rw [isOpen, hnone] at hg
      cases hg
    · rw [isOpen, hone] at hg
      obtain rfl := List.mem_singleton.mp (List.contains_iff_mem.mp hg)
      have hshut : c.openSessions.filter (· != c.lastGeneration) = [] := by
        rw [hone, List.filter_cons_of_neg, List.filter_nil]
        rw [bne_self_eq_false]
        exact Bool.false_ne_true
      constructor
      case running => exact h.running
      case waiting => exact h.waiting
      case sessions => exact .inl hshut
      case unconnected =>
        intro a ha hnot
        have hnone := (h.unconnected a ha hnot).1
        rw [hone] at hnone
        cases hnone
      case made =>
        intro g hg
        rcases List.mem_append.mp hg with hg | hg
        · exact h.made g hg
        · exact Nat.le_of_eq (List.mem_singleton.mp hg)
      case current => exact h.current
  · exact h

/-- The connector is told that a session has closed. -/
theorem Single.told (h : Single c) (g : Nat) : Single (c.told g) := by
  unfold Connector.told
  split
  · rename_i hg
    have hmem := List.contains_iff_mem.mp hg
    constructor
    case running =>
      rcases h.running with hnone | ⟨a, ha, hlast, hphase⟩
      · exact .inl hnone
      · refine .inr ⟨a, ha, hlast, fun hopen => ?_⟩
        have hconnecting := hphase hopen
        dsimp only
        rw [hconnecting, if_neg (fun hready => by cases hready)]
    case waiting =>
      intro hopen g' hg'
      dsimp only at hg'
      split at hg'
      · cases hg'
      · exact h.waiting hopen g' hg'
    case sessions =>
      rcases h.sessions with hnone | ⟨hone, huntold, hphase⟩
      · exact .inl hnone
      · refine .inr ⟨hone, fun hmem' => huntold (List.mem_filter.mp hmem').1, fun hopen => ?_⟩
        rcases hphase hopen with hready | hconnected
        · refine .inl ?_
          dsimp only
          rw [hready, if_neg]
          intro hsame
          obtain rfl := ConnectorPhase.ready.inj hsame
          exact huntold hmem
        · exact .inr hconnected
    case unconnected =>
      intro a ha hnot
      obtain ⟨hnone, huntold⟩ := h.unconnected a ha hnot
      exact ⟨hnone, fun hmem' => huntold (List.mem_filter.mp hmem').1⟩
    case made => exact fun g hg => h.made g (List.mem_filter.mp hg).1
    case current =>
      intro g' hg'
      dsimp only at hg'
      split at hg'
      · rcases hg' with hg' | hg' <;> cases hg'
      · exact h.current g' hg'
  · exact h

/-- The connector is closed. -/
theorem Single.close (h : Single c) : Single c.close.2.1 := by
  unfold Connector.close
  split
  · exact h
  · constructor
    case running =>
      rcases h.running with hnone | ⟨a, ha, hlast, -⟩
      · exact .inl hnone
      · exact .inr ⟨a, ha, hlast, fun hopen => by cases hopen⟩
    case waiting => exact fun hopen => by cases hopen
    case sessions =>
      rcases h.sessions with hnone | ⟨hone, huntold, -⟩
      · exact .inl hnone
      · exact .inr ⟨hone, huntold, fun hopen => by cases hopen⟩
    case unconnected => exact h.unconnected
    case made => exact h.made
    case current => exact fun g hg => by rcases hg with hg | hg <;> cases hg

/-- Every step keeps a connector to one attempt and one session. -/
theorem Single.step (h : Single c) (e : ConnectorEvent) : Single (c.step e).1 := by
  cases e with
  | request caller => exact h.request caller
  | connected g => exact h.connected g
  | settle g => exact h.settle g
  | succeed g => exact (h.connected g).settle g
  | fail g reason => exact h.fail g reason
  | sessionShut g => exact h.sessionShut g
  | told g => exact h.told g
  | sessionClosed g => exact (h.sessionShut g).told g
  | close => exact h.close

/-- So does every run. -/
theorem Single.run (h : Single c) (events : List ConnectorEvent) : Single (c.run events).1 := by
  induction events generalizing c with
  | nil => exact h
  | cons e rest ih => exact ih (h.step e)

end Connector

end RemoteCall
