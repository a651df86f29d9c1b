import RemoteCall.Proofs.Server.Lifecycle

/-!
# Connections do not influence one another

Two servers that agree on all but the other connections go on to agree, whatever happens to one
connection or to all (`AgreeOn`), and what happens to another connection can be left out. So two
runs in which the same things happen to a connection, and the same to all connections at once, come
to the same connection, whatever happens to the others in between.
-/

namespace RemoteCall

variable {m : Type → Type}

namespace Server

variable {s t : Server m} {id : Nat}

/-- Two servers that differ in their other connections only. -/
structure AgreeOn (id : Nat) (s t : Server m) : Prop where
  others : ∃ connections, t = { s with connections }
  connection : t.connection? id = s.connection? id

namespace AgreeOn

/-- A server agrees with itself. -/
theorem refl (id : Nat) (s : Server m) : AgreeOn id s s := ⟨⟨_, rfl⟩, rfl⟩

/-- It does not matter which server is named first. -/
theorem symm (h : AgreeOn id s t) : AgreeOn id t s := by
  obtain ⟨⟨connections, rfl⟩, hconnection⟩ := h
  exact ⟨⟨s.connections, rfl⟩, hconnection.symm⟩

/-- Servers whose connections are changed in place, in the same way, agree as before. -/
theorem mapped (h : AgreeOn id s t) (f : Connection → Connection) :
    AgreeOn id { s with connections := s.connections.map fun (i, c) => (i, f c) }
      { t with connections := t.connections.map fun (i, c) => (i, f c) } := by
  obtain ⟨⟨connections, rfl⟩, hconnection⟩ := h
  refine ⟨⟨_, rfl⟩, ?_⟩
  rw [connection?_mapped, connection?_mapped, hconnection]

/-- What happens to another connection can be left out. -/
theorem other (h : AgreeOn id s t) {other : Nat} (hother : other ≠ id) (e : ConnectionEvent) :
    AgreeOn id (s.onConnection other e).1 t := by
  obtain ⟨⟨connections, rfl⟩, hconnection⟩ := h
  obtain ⟨changed, hs⟩ := s.exists_onConnection_eq other e
  refine ⟨⟨connections, ?_⟩, hconnection.trans (connection?_other hother e).symm⟩
  rw [hs]

/-- What happens to the connection itself is the same. -/
theorem own (h : AgreeOn id s t) (e : ConnectionEvent) :
    AgreeOn id (s.onConnection id e).1 (t.onConnection id e).1 ∧
      (t.onConnection id e).2 = (s.onConnection id e).2 := by
  obtain ⟨⟨connections, rfl⟩, hconnection⟩ := h
  cases hc : s.connection? id with
  | none =>
    rw [onConnection_of_none hc, onConnection_of_none (hconnection.trans hc)]
    exact ⟨⟨⟨_, rfl⟩, hconnection⟩, rfl⟩
  | some c =>
    have hsame := hconnection.trans hc
    refine ⟨⟨?_, ?_⟩, ?_⟩
    · rw [onConnection_eq hc, onConnection_eq hsame]
      exact ⟨_, rfl⟩
    · rw [connection?_self hc, connection?_self hsame]
    · rw [onConnection_eq hc, onConnection_eq hsame]

/-- Both accept the same connection. -/
theorem accept (h : AgreeOn id s t) : AgreeOn id s.accept.2 t.accept.2 := by
  obtain ⟨⟨connections, rfl⟩, hconnection⟩ := h
  constructor
  · unfold Server.accept
    dsimp only
    split
    · exact ⟨_, rfl⟩
    · exact ⟨_, rfl⟩
  · rw [connection?_accept, connection?_accept, hconnection]
    rfl

/-- Both scan in the same way. -/
theorem scan (h : AgreeOn id s t) : AgreeOn id s.scan.2 t.scan.2 := by
  obtain ⟨⟨connections, rfl⟩, hconnection⟩ := h
  have hagree : AgreeOn id s { s with connections } := ⟨⟨connections, rfl⟩, hconnection⟩
  exact hagree.mapped s.reaped

/-- Servers that agree go on to agree, and the connection does the same. -/
theorem step (h : AgreeOn id s t) (e : ServerEvent) :
    AgreeOn id (s.step e).1 (t.step e).1 ∧
      effectsOf id (t.step e).2 = effectsOf id (s.step e).2 := by
  cases e with
  | accept => exact ⟨h.accept, rfl⟩
  | onConnection other e =>
    change AgreeOn id (s.onConnection other e).1 (t.onConnection other e).1 ∧
      effectsOf id ((t.onConnection other e).2.map (other, ·)) =
        effectsOf id ((s.onConnection other e).2.map (other, ·))
    by_cases hother : other = id
    · subst hother
      obtain ⟨hagree, heffects⟩ := h.own e
      exact ⟨hagree, by rw [heffects]⟩
    · rw [effectsOf_other hother, effectsOf_other hother]
      exact ⟨((h.other hother e).symm.other hother e).symm, rfl⟩
  | advance nanos =>
    obtain ⟨⟨connections, rfl⟩, hconnection⟩ := h
    have hmoved : AgreeOn id (s.moved nanos) (({ s with connections } : Server m).moved nanos) :=
      ⟨⟨connections, rfl⟩, hconnection⟩
    refine ⟨?_, rfl⟩
    change AgreeOn id (s.advance nanos) (({ s with connections } : Server m).advance nanos)
    rw [Server.advance, Server.advance]
    cases hdue : s.isScanDue nanos with
    | true =>
      have hsame : ({ s with connections } : Server m).isScanDue nanos = true := hdue
      rw [hsame]
      exact hmoved.scan
    | false =>
      have hsame : ({ s with connections } : Server m).isScanDue nanos = false := hdue
      rw [hsame]
      exact hmoved
  | scan =>
    refine ⟨?_, rfl⟩
    change AgreeOn id (if s.isScanning then s.scan.2 else s)
      (if t.isScanning then t.scan.2 else t)
    have hsame : t.isScanning = s.isScanning := by
      obtain ⟨⟨connections, rfl⟩, -⟩ := h
      rfl
    rw [hsame]
    split
    · exact h.scan
    · exact h
  | cancel =>
    obtain ⟨⟨connections, rfl⟩, hconnection⟩ := h
    have hagree : AgreeOn id s { s with connections } := ⟨⟨connections, rfl⟩, hconnection⟩
    have hclosed := hagree.mapped fun c => { c with isClosing := true }
    exact ⟨⟨⟨_, rfl⟩, hclosed.connection⟩, rfl⟩
  | stop =>
    obtain ⟨⟨connections, rfl⟩, hconnection⟩ := h
    have hagree : AgreeOn id s { s with connections } := ⟨⟨connections, rfl⟩, hconnection⟩
    have hclosed := hagree.mapped fun c => { c with isClosing := true }
    refine ⟨?_, rfl⟩
    change AgreeOn id s.stop ({ s with connections } : Server m).stop
    unfold stop
    dsimp only
    split
    · exact hagree
    · exact ⟨⟨_, rfl⟩, hclosed.connection⟩

end AgreeOn

/-- A connection in the table can go through any events of its own that leave it open, and nothing
else happens. -/
theorem run_alone {c : Connection} (hc : s.connection? id = some c) (trace : List ConnectionEvent)
    (hopen : (c.run s.dispatcher (trace.map (s.now, ·))).1.isEnded = false) :
    (∃ connections, (s.run (trace.map (.onConnection id))).1 = { s with connections }) ∧
      (s.run (trace.map (.onConnection id))).1.connection? id =
        some (c.run s.dispatcher (trace.map (s.now, ·))).1 ∧
      ∀ other, other ≠ id →
        (s.run (trace.map (.onConnection id))).1.connection? other = s.connection? other := by
  induction trace generalizing s c with
  | nil => exact ⟨⟨s.connections, rfl⟩, hc, fun other _ => rfl⟩
  | cons e rest ih =>
    obtain ⟨changed, hs⟩ := s.exists_onConnection_eq id e
    change ((c.step s.dispatcher s.now e).1.run s.dispatcher (rest.map (s.now, ·))).1.isEnded =
      false at hopen
    have hstep : (s.onConnection id e).1.connection? id =
        some (c.step s.dispatcher s.now e).1 := by
      rw [connection?_self hc]
      refine if_neg fun hended => ?_
      rw [Connection.run_of_ended hended] at hopen
      exact Bool.false_ne_true (hopen.symm.trans hended)
    have hrest := ih hstep (by rw [hs]; exact hopen)
    change (∃ connections, ((s.onConnection id e).1.run (rest.map (.onConnection id))).1 = _) ∧
      ((s.onConnection id e).1.run (rest.map (.onConnection id))).1.connection? id = some
        ((c.step s.dispatcher s.now e).1.run s.dispatcher (rest.map (s.now, ·))).1 ∧
      ∀ other, other ≠ id →
        ((s.onConnection id e).1.run (rest.map (.onConnection id))).1.connection? other = _
    obtain ⟨⟨connections, hrun⟩, hown, hothers⟩ := hrest
    refine ⟨⟨connections, ?_⟩, ?_, fun other hother => ?_⟩
    · rw [hrun, hs]
    · rw [hown, hs]
    · rw [hothers other hother, connection?_other hother.symm]

/-- A server at its first moment with so many connections, all alike. -/
structure Alike (p : ServerPlan m) (timestamp : Int64) (c : Connection) (count : Nat)
    (s : Server m) : Prop where
  shape : ∃ connections, s = { start p timestamp with accepted := count, connections }
  all : ∀ id < count, s.connection? id = some c

/-- One more connection can come to where the others are. -/
theorem Alike.next {p : ServerPlan m} {timestamp : Int64} {c : Connection} {count : Nat}
    (h : Alike p timestamp c count s) (hnone : s.connection? count = none)
    {trace : List ConnectionEvent}
    (hc : ((Connection.start p.settings.maxFrameSize ⟨0, timestamp⟩).run p.dispatcher
      (trace.map ((⟨0, timestamp⟩ : Moment), ·))).1 = c) (hopen : c.isEnded = false) :
    Alike p timestamp c (count + 1)
      (s.run (.accept :: trace.map (.onConnection count))).1 := by
  obtain ⟨⟨connections, rfl⟩, hall⟩ := h
  have hfound := fun id => connection?_accept
    ({ start p timestamp with accepted := count, connections } : Server m) id
  have hnew := hfound count
  rw [hnone, Option.none_or, if_pos ⟨rfl, rfl⟩] at hnew
  obtain ⟨⟨changed, hshape⟩, hown, hothers⟩ := run_alone hnew trace (hc ▸ hopen)
  refine ⟨⟨changed, hshape⟩, fun id hid => ?_⟩
  by_cases he : id = count
  · rw [he]
    exact hown.trans (congrArg some hc)
  · have hold := hall id (Nat.lt_of_le_of_ne (Nat.le_of_lt_succ hid) he)
    refine (hothers id he).trans ?_
    rw [hfound id, hold, Option.some_or]

namespace Twice

/-- A server without services. -/
def plan : ServerPlan Id := ⟨.standard, ⟨.empty, .standard, Frame.standardLimit⟩⟩

/-- Both of two connections receive the request with the id 7. -/
def events : List ServerEvent :=
  [.accept, .accept, .onConnection 0 (.receive Connection.Repeated.frame),
    .onConnection 1 (.receive Connection.Repeated.frame), .onConnection 0 (.read false),
    .onConnection 1 (.read false)]

/-- The server after these. -/
def server : Server Id := ((start plan 0).run events).1

end Twice

/-- One id is in flight on two connections, and a failure of one leaves that of the other so. -/
example :
    Twice.server.connections.map (fun (id, c) => (id, c.inFlight)) = [(0, [7]), (1, [7])] ∧
    (Twice.server.step (.onConnection 1 (.readFailed "reset"))).1.connections.map
      (fun (id, c) => (id, c.inFlight)) = [(0, [7])] := by
  decide +kernel

end Server

end RemoteCall
