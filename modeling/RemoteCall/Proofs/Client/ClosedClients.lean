import RemoteCall.Client.Basic
import RemoteCall.Proofs.Client.Deadlines
import RemoteCall.Proofs.Client.StayingClosed
import RemoteCall.Proofs.Client.Teardown

/-!
# Clients that have been closed

A client closes the sessions that its connector orders closed. Its open sessions are those that the
connector counts as open, so when the connector is closed and its session with it, no session is
left open. An attempt that gets its connection later has its session closed in the same step.

The main statement puts the two together: what a closed connector does and does not do, whatever
happens to it in whatever order, and that all sessions of its client are closed.
-/

namespace RemoteCall

namespace TimedSession

variable {t : TimedSession}

/-- Arming timers leaves the session alone. -/
theorem session_step (t : TimedSession) (e : SessionEvent) :
    (t.step e).1.session = (t.session.step e).1 := by
  have hfold : ∀ (effects : List SessionEffect) (t : TimedSession),
      (effects.foldl arm t).session = t.session := by
    intro effects
    induction effects with
    | nil => exact fun _ => rfl
    | cons effect rest ih => exact fun t => (ih (t.arm effect)).trans (t.arm_keeps effect).1
  exact hfold _ _

/-- No step opens a session that has closed. -/
theorem isClosed_step (hclosed : t.session.isClosed = true) (e : SessionEvent) :
    (t.step e).1.session.isClosed = true := by
  rw [session_step]
  exact Session.isClosed_step hclosed e

/-- Nor do several steps. -/
theorem isClosed_steps (hclosed : t.session.isClosed = true) (events : List SessionEvent) :
    (t.steps events).1.session.isClosed = true := by
  induction events generalizing t with
  | nil => exact hclosed
  | cons e rest ih => exact ih (isClosed_step hclosed e)

/-- Writing what has been accepted opens no session. -/
theorem isClosed_flush (hclosed : t.session.isClosed = true) :
    t.flush.1.session.isClosed = true := by
  rw [flush, if_pos hclosed]
  exact Session.keeps_stopWriting.isClosed_eq.trans hclosed

/-- Nothing that happens opens a session that has closed. -/
theorem isClosed_perform (hclosed : t.session.isClosed = true) (e : SessionEvent) :
    (t.perform e).1.session.isClosed = true :=
  isClosed_flush (isClosed_step hclosed e)

/-- A session that is closed has closed. -/
theorem isClosed_perform_close (t : TimedSession) :
    (t.perform .close).1.session.isClosed = true := by
  have hstep : (t.step .close).1.session.isClosed = true := by
    rw [session_step, Session.step, Session.close]
    split
    · assumption
    · exact Session.isClosed_teardown _
  exact isClosed_flush hstep

/-- The clock opens no session. -/
theorem isClosed_advance (hclosed : t.session.isClosed = true) (nanos : Nat) :
    (t.advance nanos).1.session.isClosed = true :=
  isClosed_steps (t := { t with scheduler := (t.scheduler.advance nanos).2 }) hclosed _

end TimedSession

namespace Client

/-- The connections of a client and what its connector knows of them. -/
structure Linked (c : Client) : Prop where
  single : c.connector.Single
  /-- An attempt that gets its connection has ended in the same step. -/
  unconnected : ∀ a ∈ c.connector.running, a.isConnected = false
  /-- The connector counts an open session as open. -/
  known : ∀ l ∈ c.links, l.isClosed = false → l.generation ∈ c.connector.openSessions
  /-- Each connection was made by an attempt of its own, which is over. -/
  distinct : (c.links.map (·.generation)).Nodup
  finished : ∀ l ∈ c.links, ∀ a ∈ c.connector.running, a.generation ≠ l.generation
  made : ∀ l ∈ c.links, l.generation ≤ c.connector.lastGeneration

variable {c : Client}

/-- The connections of a generation have closed. -/
def ClosedAt (c : Client) (generation : Nat) : Prop :=
  ∀ l ∈ c.links, l.generation = generation → l.isClosed = true

/-- What happens to a session opens none that has closed. -/
theorem ClosedAt.onSession {g : Nat} (h : ClosedAt c g) (g' : Nat) (e : SessionEvent) :
    ClosedAt (c.onSession g' e).1 g := by
  unfold Client.onSession
  cases hfound : c.link? g' with
  | none => exact h
  | some l =>
    intro l' hl' hg
    obtain ⟨old, hold, rfl⟩ := List.mem_map.mp hl'
    split at hg
    · rename_i hsame
      rw [if_pos hsame]
      have hl : l.generation = g :=
        (key_of_find? hfound).trans ((beq_iff_eq.mp hsame).symm.trans hg)
      exact TimedSession.isClosed_perform (h l (List.mem_of_find?_eq_some hfound) hl) e
    · rename_i hother
      rw [if_neg hother]
      exact h old hold hg

/-- A session that is closed has closed. -/
theorem closedAt_onSession_close (c : Client) (g : Nat) :
    ClosedAt (c.onSession g .close).1 g := by
  unfold Client.onSession
  cases hfound : c.link? g with
  | none =>
    intro l hl hg
    exact absurd (beq_iff_eq.mpr hg) (List.find?_eq_none.mp hfound l hl)
  | some l =>
    intro l' hl' hg
    obtain ⟨old, hold, rfl⟩ := List.mem_map.mp hl'
    split at hg
    · rename_i hsame
      rw [if_pos hsame]
      exact TimedSession.isClosed_perform_close l.timed
    · rename_i hother
      exact absurd (beq_iff_eq.mpr hg) hother

/-- What the connector wants done opens no session that has closed. -/
theorem ClosedAt.carryOut {g : Nat} (h : ClosedAt c g) (effects : List ConnectorEffect) :
    ClosedAt (c.carryOut effects).1 g := by
  induction effects generalizing c with
  | nil => exact h
  | cons effect rest ih =>
    cases effect with
    | answer caller outcome => exact ih h
    | connect g' => exact ih h
    | closeSession g' => exact ih (h.onSession g' .close)

/-- A session that the connector wants closed has been closed. -/
theorem closedAt_carryOut {g : Nat} {effects : List ConnectorEffect}
    (h : .closeSession g ∈ effects) (c : Client) : ClosedAt (c.carryOut effects).1 g := by
  induction effects generalizing c with
  | nil => exact absurd h List.not_mem_nil
  | cons effect rest ih =>
    rcases List.mem_cons.mp h with rfl | hrest
    · exact (closedAt_onSession_close c g).carryOut rest
    · cases effect with
      | answer caller outcome => exact ih hrest c
      | connect g' => exact ih hrest c
      | closeSession g' => exact ih hrest _

/-- The close of a session ends no attempt, and other sessions stay open. -/
theorem sessionClosed_keeps (c : Connector) (g : Nat) :
    (c.sessionClosed g).running = c.running ∧
      (c.sessionClosed g).lastGeneration = c.lastGeneration ∧
      (c.sessionClosed g).isClosed = c.isClosed ∧
      ∀ g' ∈ c.openSessions, g' ≠ g → g' ∈ (c.sessionClosed g).openSessions := by
  have htold : ∀ c : Connector, (c.told g).lastGeneration = c.lastGeneration ∧
      (c.told g).isClosed = c.isClosed ∧ (c.told g).openSessions = c.openSessions := by
    intro c
    unfold Connector.told
    split
    · exact ⟨rfl, rfl, rfl⟩
    · exact ⟨rfl, rfl, rfl⟩
  have hshut : (c.sessionShut g).lastGeneration = c.lastGeneration ∧
      (c.sessionShut g).isClosed = c.isClosed ∧
      ∀ g' ∈ c.openSessions, g' ≠ g → g' ∈ (c.sessionShut g).openSessions := by
    unfold Connector.sessionShut
    split
    · exact ⟨rfl, rfl, fun g' hg' hne => List.mem_filter.mpr ⟨hg', bne_iff_ne.mpr hne⟩⟩
    · exact ⟨rfl, rfl, fun _ hg' _ => hg'⟩
  obtain ⟨hlast, hclosed, hsessions⟩ := htold (c.sessionShut g)
  refine ⟨?_, hlast.trans hshut.1, hclosed.trans hshut.2.1, fun g' hg' hne => ?_⟩
  · exact (Connector.running_told _ g).trans (Connector.running_sessionShut c g)
  · rw [Connector.sessionClosed, hsessions]
    exact hshut.2.2 g' hg' hne

/-- The connector has changed and the connections have not. -/
theorem Linked.of_connector (h : Linked c) {connector : Connector} (hsingle : connector.Single)
    (hrunning : ∀ a ∈ connector.running, a.isConnected = false ∧
      ∀ l ∈ c.links, a.generation ≠ l.generation)
    (hsessions : ∀ l ∈ c.links, l.isClosed = false → l.generation ∈ connector.openSessions)
    (hlast : c.connector.lastGeneration ≤ connector.lastGeneration) :
    Linked { c with connector } where
  single := hsingle
  unconnected := fun a ha => (hrunning a ha).1
  known := hsessions
  distinct := h.distinct
  finished := fun l hl a ha => (hrunning a ha).2 l hl
  made := fun l hl => Nat.le_trans (h.made l hl) hlast

/-- The connections are changed in place, and none is opened. -/
theorem Linked.mapLinks (h : Linked c) {f : Link → Link}
    (hgeneration : ∀ l, (f l).generation = l.generation)
    (hopen : ∀ l ∈ c.links, (f l).isClosed = false → l.isClosed = false) :
    Linked { c with links := c.links.map f } := by
  constructor
  case single => exact h.single
  case unconnected => exact h.unconnected
  case known =>
    intro l' hl' hopen'
    obtain ⟨l, hl, rfl⟩ := List.mem_map.mp hl'
    rw [hgeneration]
    exact h.known l hl (hopen l hl hopen')
  case distinct =>
    have hsame : (c.links.map f).map (·.generation) = c.links.map (·.generation) := by
      rw [List.map_map]
      exact List.map_congr_left fun l _ => hgeneration l
    dsimp only
    rw [hsame]
    exact h.distinct
  case finished =>
    intro l' hl' a ha
    obtain ⟨l, hl, rfl⟩ := List.mem_map.mp hl'
    rw [hgeneration]
    exact h.finished l hl a ha
  case made =>
    intro l' hl'
    obtain ⟨l, hl, rfl⟩ := List.mem_map.mp hl'
    rw [hgeneration]
    exact h.made l hl

/-- Something happens to a session. If it closes, the connector is told. -/
theorem Linked.onSession (h : Linked c) (g : Nat) (e : SessionEvent) :
    Linked (c.onSession g e).1 ∧
      (c.onSession g e).1.connector.isClosed = c.connector.isClosed := by
  unfold Client.onSession
  cases hfound : c.link? g with
  | none => exact ⟨h, rfl⟩
  | some l =>
    have hl : l ∈ c.links := List.mem_of_find?_eq_some hfound
    have hg : l.generation = g := key_of_find? hfound
    have honly : ∀ l' ∈ c.links, l'.generation = g → l' = l := fun l' hl' hg' =>
      List.inj_on_of_nodup_map h.distinct hl' hl (hg'.trans hg.symm)
    dsimp only
    have hmodified : Linked { c with links := c.links.map fun old =>
        if old.generation == g then { old with timed := (l.timed.perform e).1 } else old } := by
      refine h.mapLinks (fun old => ?_) fun old hold hopen => ?_
      · split
        · rfl
        · rfl
      · split at hopen
        · rename_i hsame
          rw [honly old hold (beq_iff_eq.mp hsame)]
          cases hclosed : l.isClosed with
          | false => rfl
          | true => exact (TimedSession.isClosed_perform hclosed e).symm.trans hopen
        · exact hopen
    cases hclosed : (l.timed.perform e).1.session.isClosed with
    | false =>
      rw [Bool.false_and, if_neg Bool.false_ne_true]
      exact ⟨hmodified, rfl⟩
    | true =>
      rw [Bool.true_and]
      split
      · obtain ⟨hrunning, hlast, hsame, hsessions⟩ := sessionClosed_keeps c.connector g
        refine ⟨?_, hsame⟩
        have hsingle := (h.single.sessionShut g).told g
        refine hmodified.of_connector hsingle (fun a ha => ?_) (fun l' hl' hopen => ?_) ?_
        · have hmem : a ∈ c.connector.running := hrunning ▸ ha
          exact ⟨h.unconnected a hmem, fun l' hl' => hmodified.finished l' hl' a hmem⟩
        · refine hsessions _ (hmodified.known l' hl' hopen) fun hsame' => ?_
          obtain ⟨old, hold, rfl⟩ := List.mem_map.mp hl'
          split at hopen
          · exact Bool.noConfusion (hclosed.symm.trans hopen)
          · rename_i hother
            rw [if_neg hother] at hsame'
            exact hother (beq_iff_eq.mpr hsame')
        · exact Nat.le_of_eq hlast.symm
      · exact ⟨hmodified, rfl⟩

/-- What the connector wants done. -/
theorem Linked.carryOut (h : Linked c) (effects : List ConnectorEffect) :
    Linked (c.carryOut effects).1 ∧
      (c.carryOut effects).1.connector.isClosed = c.connector.isClosed := by
  induction effects generalizing c with
  | nil => exact ⟨h, rfl⟩
  | cons effect rest ih =>
    cases effect with
    | answer caller outcome => exact ih h
    | connect g => exact ih h
    | closeSession g =>
      obtain ⟨hsession, hclosed⟩ := h.onSession g .close
      obtain ⟨hrest, hclosed'⟩ := ih hsession
      exact ⟨hrest, hclosed'.trans hclosed⟩

/-- A caller asks. An attempt that starts for it has a generation of its own. -/
theorem Linked.request (h : Linked c) (caller : Nat) :
    Linked { c with connector := (c.connector.request caller).1 } := by
  have hsingle := h.single.request caller
  have hjoined : ∀ g, ∀ a ∈ (c.connector.modifyAttempt g fun a =>
      { a with callers := a.callers ++ [caller] }).running,
      a.isConnected = false ∧ ∀ l ∈ c.links, a.generation ≠ l.generation := by
    intro g a ha
    obtain ⟨b, hb, rfl⟩ := List.mem_map.mp ha
    split
    · exact ⟨h.unconnected b hb, fun l hl => h.finished l hl b hb⟩
    · exact ⟨h.unconnected b hb, fun l hl => h.finished l hl b hb⟩
  have hstarted : (c.connector.startAttempt caller).1.Single →
      Linked { c with connector := (c.connector.startAttempt caller).1 } := by
    unfold Connector.startAttempt
    split
    · exact fun _ => h
    · intro hsingle
      refine h.of_connector hsingle (fun a ha => ?_) h.known (Nat.le_succ _)
      rcases List.mem_append.mp ha with ha | ha
      · exact ⟨h.unconnected a ha, fun l hl => h.finished l hl a ha⟩
      · obtain rfl := List.mem_singleton.mp ha
        refine ⟨rfl, fun l hl hsame => ?_⟩
        have hmade := h.made l hl
        rw [← hsame] at hmade
        exact Nat.not_succ_le_self _ hmade
  unfold Connector.request at hsingle ⊢
  cases hclosed : c.connector.isClosed with
  | true => exact h
  | false =>
    rw [hclosed, if_neg Bool.false_ne_true] at hsingle
    rw [if_neg Bool.false_ne_true]
    cases hphase : c.connector.phase with
    | idle =>
      rw [hphase] at hsingle
      exact hstarted hsingle
    | connecting g =>
      rw [hphase] at hsingle
      exact h.of_connector hsingle (hjoined g) h.known (Nat.le_refl _)
    | ready g =>
      rw [hphase] at hsingle
      dsimp only at hsingle ⊢
      split
      · exact h
      · rename_i hshut
        rw [if_neg hshut] at hsingle
        exact hstarted hsingle

/-- An attempt ends without a session. -/
theorem Linked.fail (h : Linked c) (g : Nat) (reason : String) :
    Linked { c with connector := (c.connector.fail g reason).1 } := by
  have hsingle := h.single.fail g reason
  unfold Connector.fail at hsingle ⊢
  cases ha : c.connector.attempt? g with
  | none => exact h
  | some a =>
    obtain ⟨generation, callers, isConnected⟩ := a
    cases isConnected with
    | true => exact h
    | false =>
      rw [ha] at hsingle
      refine h.of_connector hsingle (fun a ha' => ?_) h.known (Nat.le_refl _)
      have hmem := (List.mem_filter.mp ha').1
      exact ⟨h.unconnected a hmem, fun l hl => h.finished l hl a hmem⟩

/-- What becomes of the attempt in progress when it gets its connection, and of its session. -/
theorem Linked.succeed_eq (h : Linked c) {g : Nat} {a : ConnectAttempt}
    (ha : c.connector.attempt? g = some a) :
    (c.connector.succeed g).1.running = [] ∧ (c.connector.succeed g).1.openSessions = [g] ∧
      (c.connector.succeed g).1.lastGeneration = g ∧
      (c.connector.succeed g).1.isClosed = c.connector.isClosed ∧
      (c.connector.isClosed = true → .closeSession g ∈ (c.connector.succeed g).2) := by
  obtain ⟨hrunning, rfl, hlast, -⟩ := h.single.running_eq ha
  have hmem : a ∈ c.connector.running := hrunning ▸ List.mem_cons_self
  rw [h.single.succeed_eq hmem, if_pos rfl, h.unconnected a hmem, if_neg Bool.false_ne_true,
    Connector.settled]
  dsimp only
  split
  · exact ⟨rfl, rfl, hlast, rfl, fun _ => List.mem_cons_self⟩
  · rename_i hopen
    exact ⟨rfl, rfl, hlast, rfl, fun hclosed => absurd hclosed hopen⟩

/-- An attempt gets its connection. -/
theorem Linked.succeed (h : Linked c) (g : Nat) :
    Linked { c with
      connector := (c.connector.succeed g).1
      links := if (c.connector.attempt? g).isSome then
          c.links ++ [⟨g, .start c.connector.settings c.codec⟩]
        else c.links } := by
  cases ha : c.connector.attempt? g with
  | none =>
    rw [Connector.succeed_of_none ha]
    exact h
  | some a =>
    obtain ⟨hrunning, hg, -⟩ := h.single.running_eq ha
    have hmem : a ∈ c.connector.running := hrunning ▸ List.mem_cons_self
    have hnone := (h.single.unconnected a hmem (h.unconnected a hmem)).1
    obtain ⟨hrunning', hsessions, hlast, -⟩ := h.succeed_eq ha
    have hfresh : ∀ l ∈ c.links, l.generation ≠ g := fun l hl hsame =>
      h.finished l hl a hmem (hg.trans hsame.symm)
    rw [Option.isSome_some, if_pos rfl]
    constructor
    case single => exact (h.single.connected g).settle g
    case unconnected =>
      intro a' ha'
      dsimp only at ha'
      rw [hrunning'] at ha'
      exact absurd ha' List.not_mem_nil
    case known =>
      intro l hl hopen
      rw [hsessions]
      rcases List.mem_append.mp hl with hl | hl
      · have hknown := h.known l hl hopen
        rw [hnone] at hknown
        exact absurd hknown List.not_mem_nil
      · obtain rfl := List.mem_singleton.mp hl
        exact List.mem_cons_self
    case distinct =>
      dsimp only
      rw [List.map_append]
      refine List.nodup_append.mpr ⟨h.distinct, List.nodup_singleton _, ?_⟩
      intro generation hgeneration g' hg' hsame
      obtain ⟨l, hl, rfl⟩ := List.mem_map.mp hgeneration
      exact hfresh l hl (hsame.trans (List.mem_singleton.mp hg'))
    case finished =>
      intro l _ a' ha'
      dsimp only at ha'
      rw [hrunning'] at ha'
      exact absurd ha' List.not_mem_nil
    case made =>
      intro l hl
      dsimp only
      rw [hlast]
      rcases List.mem_append.mp hl with hl | hl
      · have hmade := h.made l hl
        rwa [(h.single.running_eq ha).2.2.1] at hmade
      · obtain rfl := List.mem_singleton.mp hl
        exact Nat.le_refl _

/-- The connector is closed. -/
theorem Linked.close (h : Linked c) : Linked { c with connector := c.connector.close.2.1 } := by
  have hsingle := h.single.close
  have hkeeps : c.connector.close.2.1.openSessions = c.connector.openSessions ∧
      c.connector.close.2.1.lastGeneration = c.connector.lastGeneration := by
    unfold Connector.close
    split
    · exact ⟨rfl, rfl⟩
    · exact ⟨rfl, rfl⟩
  refine h.of_connector hsingle (fun a ha => ?_) ?_ (Nat.le_of_eq hkeeps.2.symm)
  · have hmem : a ∈ c.connector.running := (Connector.running_close c.connector).1 ▸ ha
    exact ⟨h.unconnected a hmem, fun l hl => h.finished l hl a hmem⟩
  · rw [hkeeps.1]
    exact h.known

/-- The clock moves. -/
theorem Linked.advance (h : Linked c) (nanos : Nat) : Linked (c.advance nanos).1 := by
  have hmapped : Linked { c with links := c.links.map fun l =>
      { l with timed := (l.timed.advance nanos).1 } } := by
    refine h.mapLinks (fun _ => rfl) fun l _ hopen => ?_
    cases hclosed : l.isClosed with
    | false => rfl
    | true => exact (TimedSession.isClosed_advance hclosed nanos).symm.trans hopen
  rw [Client.advance, List.map_map]
  exact hmapped

/-- Every step keeps the connections of a client in line with its connector. -/
theorem Linked.step (h : Linked c) (e : ClientEvent) : Linked (c.step e).1 := by
  cases e with
  | request caller => exact ((h.request caller).carryOut _).1
  | succeed g => exact ((h.succeed g).carryOut _).1
  | fail g reason => exact ((h.fail g reason).carryOut _).1
  | onSession g e => exact (h.onSession g e).1
  | advance nanos => exact h.advance nanos
  | close => exact (h.close.carryOut _).1

/-- A client that has not been asked has neither connections nor attempts. -/
theorem linked_start (settings : ClientSettings) (codec : CodecSettings) :
    Linked (start settings codec) where
  single := Connector.single_start settings
  unconnected := fun _ ha => absurd ha List.not_mem_nil
  known := fun _ hl => absurd hl List.not_mem_nil
  distinct := List.nodup_nil
  finished := fun _ hl => absurd hl List.not_mem_nil
  made := fun _ hl => absurd hl List.not_mem_nil

/-- So does every run. -/
theorem Linked.run (h : Linked c) (events : List ClientEvent) : Linked (c.run events).1 := by
  induction events generalizing c with
  | nil => exact h
  | cons e rest ih => exact ih (h.step e)

/-- A client of which nothing is left open. -/
structure AllClosed (c : Client) : Prop where
  connector : c.connector.isClosed = true
  sessions : ∀ generation, ClosedAt c generation

/-- Closing a client closes the session at hand, and no other is open. -/
theorem Linked.allClosed_close (h : Linked c) (hopen : c.connector.isClosed = false) :
    AllClosed (c.step .close).1 := by
  have hclosed : c.connector.close.2.1.isClosed = true := by
    rw [Connector.close, hopen, if_neg Bool.false_ne_true]
  refine ⟨(h.close.carryOut c.connector.close.2.2).2.trans hclosed, fun g => ?_⟩
  by_cases hordered : .closeSession g ∈ c.connector.close.2.2
  · exact closedAt_carryOut hordered _
  · have hbefore : ClosedAt c g := by
      intro l hl hg
      cases hl' : l.isClosed with
      | true => rfl
      | false =>
        have hknown := hg ▸ h.known l hl hl'
        rcases h.single.sessions with hnone | ⟨hone, -, hphase⟩
        · rw [hnone] at hknown
          exact absurd hknown List.not_mem_nil
        · rw [hone] at hknown
          obtain rfl := List.mem_singleton.mp hknown
          rcases hphase hopen with hready | ⟨a, ha, hconnected⟩
          · exact absurd (Connector.closeSession_mem_close hopen hready) hordered
          · rw [h.unconnected a ha] at hconnected
            cases hconnected
    exact ClosedAt.carryOut (c := { c with connector := c.connector.close.2.1 }) hbefore _

/-- What happens to a closed client opens nothing. -/
theorem AllClosed.step (h : AllClosed c) (hlinked : Linked c) (e : ClientEvent) :
    AllClosed (c.step e).1 := by
  cases e with
  | request caller =>
    have hrequest : c.connector.request caller =
        (c.connector, [.answer caller (.error (.alreadyClosed .connector))]) := by
      rw [Connector.request, if_pos h.connector]
    have hstep : c.step (.request caller) =
        { c with connector := (c.connector.request caller).1 }.carryOut
          (c.connector.request caller).2 := rfl
    rw [hstep, hrequest]
    exact ⟨(hlinked.carryOut _).2.trans h.connector, fun g => (h.sessions g).carryOut _⟩
  | succeed g =>
    cases ha : c.connector.attempt? g with
    | none =>
      rw [Client.step, onConnector]
      dsimp only
      rw [Connector.step, Connector.succeed_of_none ha, ha]
      exact h
    | some a =>
      have hsucceed := hlinked.succeed g
      obtain ⟨-, -, -, hclosed, hordered⟩ := hlinked.succeed_eq ha
      rw [ha] at hsucceed
      rw [Client.step, onConnector]
      dsimp only
      rw [Connector.step, ha]
      refine ⟨(hsucceed.carryOut _).2.trans (hclosed.trans h.connector), fun g' => ?_⟩
      by_cases hsame : g' = g
      · rw [hsame]
        exact closedAt_carryOut (hordered h.connector) _
      · refine ClosedAt.carryOut (fun l hl hg' => ?_) _
        rcases List.mem_append.mp hl with hl | hl
        · exact h.sessions g' l hl hg'
        · obtain rfl := List.mem_singleton.mp hl
          exact absurd hg'.symm hsame
  | fail g reason =>
    have hclosed : (c.connector.fail g reason).1.isClosed = true := by
      unfold Connector.fail
      split
      · exact h.connector
      · exact h.connector
    refine ⟨((hlinked.fail g reason).carryOut _).2.trans hclosed, fun g' => ?_⟩
    exact ClosedAt.carryOut (c := { c with connector := (c.connector.fail g reason).1 })
      (h.sessions g') _
  | onSession g e =>
    exact ⟨(hlinked.onSession g e).2.trans h.connector, fun g' => (h.sessions g').onSession g e⟩
  | advance nanos =>
    refine ⟨h.connector, fun g l hl hg => ?_⟩
    rw [Client.step, Client.advance, List.map_map] at hl
    obtain ⟨old, hold, rfl⟩ := List.mem_map.mp hl
    exact TimedSession.isClosed_advance (h.sessions g old hold hg) nanos
  | close =>
    have hclose : c.connector.close = (.error (.alreadyClosed .connector), c.connector, []) := by
      rw [Connector.close, if_pos h.connector]
    have hstep : c.step .close =
        { c with connector := c.connector.close.2.1 }.carryOut c.connector.close.2.2 := rfl
    rw [hstep, hclose]
    exact h

/-- So it stays in a run. -/
theorem AllClosed.run (h : AllClosed c) (hlinked : Linked c) (events : List ClientEvent) :
    AllClosed (c.run events).1 := by
  induction events generalizing c with
  | nil => exact h
  | cons e rest ih => exact ih (h.step hlinked e) (hlinked.step e)

/-- Two stretches of a run. -/
theorem run_append (c : Client) (events more : List ClientEvent) :
    c.run (events ++ more) =
      (((c.run events).1.run more).1, (c.run events).2 ++ ((c.run events).1.run more).2) := by
  induction events generalizing c with
  | nil => rfl
  | cons e rest ih =>
    rw [List.cons_append, run, run]
    dsimp only
    rw [ih, List.append_assoc]

end Client

namespace Connector

/-- What holds of a connector that is closed for the first time, whatever happens after that. -/
structure StaysClosed (c : Connector) (after : List ConnectorEvent) : Prop where
  accepted : c.close.1 = .ok ()
  /-- Every later caller is refused. -/
  refuses : ∀ caller, (c.close.2.1.run after).1.request caller =
    ((c.close.2.1.run after).1, [.answer caller (.error (.alreadyClosed .connector))])
  /-- Every further close is refused. -/
  already : (c.close.2.1.run after).1.close =
    (.error (.alreadyClosed .connector), (c.close.2.1.run after).1, [])
  /-- No attempt starts. -/
  unstarted : ∀ g, .connect g ∉ (c.close.2.1.run after).2
  /-- The connector is neither connecting nor ready. -/
  phase : (c.close.2.1.run after).1.phase = .idle
  /-- The session at hand is ordered closed at once. -/
  session : ∀ g, c.phase = .ready g → .closeSession g ∈ c.close.2.2
  /-- Nobody is given a session. -/
  ungiven : ∀ caller g, .answer caller (.ok g) ∉ (c.close.2.1.run after).2
  /-- The callers of an attempt in progress wait until something brings it its outcome, and are then
  all given this outcome. -/
  waiting : ∀ a ∈ c.running, Served c.close.2.1 a.generation a.callers after
  /-- The outcome is a failure. -/
  failures : ∀ g outcome, c.close.2.1.outcomeIn? g after = some outcome →
    ∃ reason, outcome = .error (.connection reason)
  /-- If the attempt is still in progress and now succeeds or fails, then none is in progress any
  more, exactly its callers are answered, all with a failure, and a session that is open is ordered
  closed. -/
  ends : ∀ a ∈ (c.close.2.1.run after).1.running, ∀ e outcome,
    (c.close.2.1.run after).1.outcome? a e = some outcome →
      (∃ reason, outcome = .error (.connection reason)) ∧
        Ended ((c.close.2.1.run after).1.step e) a.callers outcome
  /-- A session that is still open has been ordered closed, or its attempt is still in progress. -/
  sessions : ∀ g ∈ (c.close.2.1.run after).1.openSessions,
    .closeSession g ∈ c.close.2.2 ++ (c.close.2.1.run after).2 ∨
      ∃ a ∈ (c.close.2.1.run after).1.running, a.generation = g ∧ a.isConnected = true

/-- **A closed connector stays closed.** From the moment at which a connector is first closed it
refuses callers and further closes, starts no attempt and gives nobody a session; an attempt still
in progress fails for its callers, and its session is ordered closed. In a client these orders are
carried out: from then on all its sessions are closed. -/
theorem run_staysClosed (settings : ClientSettings) (codec : CodecSettings) :
    (∀ before after, ((start settings).run before).1.isClosed = false →
      StaysClosed ((start settings).run before).1 after) ∧
    ∀ before after, ((Client.start settings codec).run before).1.connector.isClosed = false →
      ∀ l ∈ ((Client.start settings codec).run (before ++ .close :: after)).1.links,
        l.isClosed = true := by
  refine ⟨fun before after hopen => ?_, fun before after hopen l hl => ?_⟩
  · have hsingle : Single ((start settings).run before).1 := (single_start settings).run before
    generalize ((start settings).run before).1 = c at hopen hsingle
    obtain ⟨hend, hdeclines⟩ := (discarding_close hsingle hopen).run hsingle.close after
    constructor
    case accepted => rw [Connector.close, hopen, if_neg Bool.false_ne_true]
    case refuses => exact request_of_isClosed hend.isClosed
    case already => exact hend.close_eq
    case unstarted => exact hdeclines.connect_not_mem
    case phase => exact hend.phase
    case session => exact fun g hphase => closeSession_mem_close hopen hphase
    case ungiven => exact hdeclines.session_not_mem
    case waiting =>
      intro a ha
      have hmem : a ∈ c.close.2.1.running := (running_close c).1 ▸ ha
      exact (waits_of_mem hmem).served hsingle.close after
    case failures =>
      exact fun g outcome he => (discarding_close hsingle hopen).outcomeIn?_failure hsingle.close he
    case ends =>
      intro a ha e outcome he
      exact ⟨hend.outcome?_failure he, (hsingle.close.run after).ends ha he⟩
    case sessions => exact fun g hg => (hend.sessions g hg).symm
  · have hlinked := (Client.linked_start settings codec).run before
    have hclosed := (hlinked.allClosed_close hopen).run (hlinked.step .close) after
    rw [Client.run_append] at hl
    exact hclosed.sessions _ l hl rfl

/-- A connector is closed while two callers wait for an attempt that then succeeds, or fails; and a
client is closed while it has a session. -/
theorem run_staysClosed_connecting :
    ((start .standard).run [.request 1, .request 2]).1.running = [⟨1, [1, 2], false⟩] ∧
    (StaysClosed ((start .standard).run [.request 1, .request 2]).1 [.request 3, .succeed 1] ∧
      ((start .standard).run [.request 1, .request 2, .close, .request 3, .succeed 1]).2 =
        [.connect 1, .answer 3 (.error (.alreadyClosed .connector)), .closeSession 1,
          .answer 1 (.error (.connection "connector closed")),
          .answer 2 (.error (.connection "connector closed"))]) ∧
    (StaysClosed ((start .standard).run [.request 1, .request 2]).1
        [.request 3, .fail 1 "refused"] ∧
      ((start .standard).run [.request 1, .request 2, .close, .request 3, .fail 1 "refused"]).2 =
        [.connect 1, .answer 3 (.error (.alreadyClosed .connector)),
          .answer 1 (.error (.connection "refused")),
          .answer 2 (.error (.connection "refused"))]) ∧
    Ended ((((start .standard).run [.request 1, .request 2]).1.close.2.1.run [.request 3]).1.step
      (.fail 1 "refused")) [1, 2] (.error (.connection "refused")) ∧
    ((Client.start .standard .standard).run [.request 1, .succeed 1]).1.links.map Link.isClosed =
      [false] ∧
    ∀ l ∈ ((Client.start .standard .standard).run
      ([.request 1, .succeed 1] ++ .close :: [.request 2])).1.links, l.isClosed = true := by
  obtain ⟨hconnector, hclient⟩ := run_staysClosed .standard .standard
  have hwaiting := hconnector [.request 1, .request 2] [.request 3] rfl
  refine ⟨rfl, ⟨hconnector _ _ rfl, rfl⟩, ⟨hconnector _ _ rfl, rfl⟩, ?_, rfl, hclient _ _ rfl⟩
  exact (hwaiting.ends ⟨1, [1, 2], false⟩ List.mem_cons_self _ _ rfl).2

end Connector

end RemoteCall
