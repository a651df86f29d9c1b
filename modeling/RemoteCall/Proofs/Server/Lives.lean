import RemoteCall.Proofs.Server.Table

/-!
# The lives of the connections of a server

What a server does to the connection of a number depends on that connection alone. Its life is the
moment at which it was accepted and what has happened to it since: its own events, each scan that
finds it idle, and each time that the server closes all. The connection in the table is that
connection, run alone through its life, until it ends.
-/

namespace RemoteCall

variable {m : Type → Type}

/-- The life of a connection: when it was accepted, and what has happened to it at which moment. -/
structure Life where
  opened : Moment
  events : List (Moment × ConnectionEvent)

namespace Life

/-- The connection at the end of its life so far, with all that it has done. -/
def outcome (p : ServerPlan m) (life : Life) : Connection × List (ConnectionEffect m) :=
  (Connection.start p.settings.maxFrameSize life.opened).run p.dispatcher life.events

/-- The life with more events. -/
def andThen (life : Life) (events : List (Moment × ConnectionEvent)) : Life :=
  { life with events := life.events ++ events }

/-- The connection, unless it has ended. -/
def open? (p : ServerPlan m) (life : Life) : Option Connection :=
  if (life.outcome p).1.isEnded then none else some (life.outcome p).1

/-- More events go on where the life has come to. -/
theorem outcome_andThen (p : ServerPlan m) (life : Life)
    (events : List (Moment × ConnectionEvent)) :
    (life.andThen events).outcome p = (((life.outcome p).1.run p.dispatcher events).1,
      (life.outcome p).2 ++ ((life.outcome p).1.run p.dispatcher events).2) :=
  Connection.run_append ..

/-- A life without more events is the same life. -/
theorem andThen_nil (life : Life) : life.andThen [] = life := by
  rw [andThen, List.append_nil]

end Life

namespace Connection

/-- A connection that is accepted while the server shuts down is one that is closed at once. -/
theorem start_closing (d : Dispatcher m) (maxFrameSize : Nat) (now : Moment) :
    (start maxFrameSize now).run d [(now, .closing)] =
      ({ start maxFrameSize now with isClosing := true }, []) := rfl

/-- An open connection that is to be closed is marked and nothing else. -/
theorem step_closing {d : Dispatcher m} {now : Moment} {c : Connection}
    (hopen : c.isEnded = false) : c.step d now .closing = ({ c with isClosing := true }, []) := by
  rw [step, hopen]
  rfl

end Connection

namespace Server

variable {s : Server m} {id : Nat}

/-- What a scan does to the connection of a number, as an event of that connection. -/
def marks (s : Server m) (id : Nat) : List (Moment × ConnectionEvent) :=
  if (s.connection? id).any s.isReapable then [(s.now, .closing)] else []

/-- What an event is to the connection of a number. -/
def share (s : Server m) (id : Nat) : ServerEvent → List (Moment × ConnectionEvent)
  | .accept => []
  | .onConnection other e => if other = id then [(s.now, e)] else []
  | .advance nanos => if s.isScanDue nanos then (s.moved nanos).marks id else []
  | .scan => if s.isScanning then s.marks id else []
  | .cancel => [(s.now, .closing)]
  | .stop => if s.isRunning then [] else [(s.now, .closing)]

/-- How the life of a connection begins. One that is accepted while the server shuts down is closed
at once. -/
def birth? (s : Server m) (id : Nat) : ServerEvent → Option Life
  | .accept =>
    if s.isAccepting = true ∧ s.accepted = id then
      some ⟨s.now, if s.isRunning then [] else [(s.now, .closing)]⟩
    else none
  | _ => none

/-- The life of a connection through an event. -/
def goOn (s : Server m) (id : Nat) (e : ServerEvent) : Option Life → Option Life
  | some life => some (life.andThen (s.share id e))
  | none => s.birth? id e

/-- The life of a connection through a run, from what it has been before. -/
def lifeFrom (s : Server m) (id : Nat) (life : Option Life) : List ServerEvent → Option Life
  | [] => life
  | e :: rest => (s.step e).1.lifeFrom id (s.goOn id e life) rest

/-- The life of the connection of a number in a run, once it has been accepted. -/
def life? (s : Server m) (id : Nat) (events : List ServerEvent) : Option Life :=
  s.lifeFrom id none events

/-- What a server knows of the connection of a number is its life. -/
structure Tracks (s : Server m) (id : Nat) (life : Option Life)
    (effects : List (ConnectionEffect m)) : Prop where
  /-- The connection in the table is the one that its life has come to, until it ends. -/
  connection : s.connection? id = life.bind (·.open? s.toServerPlan)
  /-- What has been done by it is what it has done in its life. -/
  effects : effects = (life.map fun life => (life.outcome s.toServerPlan).2).getD []
  /-- It has a life once it has been accepted. -/
  known : life.isSome ↔ id < s.accepted

namespace Tracks

variable {life : Option Life} {effects : List (ConnectionEffect m)}

/-- Nothing is known at the start. -/
theorem start (p : ServerPlan m) (timestamp : Int64) (id : Nat) :
    Tracks (Server.start p timestamp) id none [] where
  connection := rfl
  effects := rfl
  known := ⟨fun hsome => (nomatch hsome), fun hlt => absurd hlt (Nat.not_lt_zero id)⟩

/-- A connection in the table has not ended. -/
theorem isEnded_eq (h : Tracks s id life effects) {c : Connection}
    (hc : s.connection? id = some c) : c.isEnded = false := by
  rw [h.connection] at hc
  obtain ⟨life, rfl, hopen⟩ := Option.bind_eq_some_iff.mp hc
  unfold Life.open? at hopen
  split at hopen
  · cases hopen
  · rename_i hnot
    cases hopen
    exact Bool.eq_false_iff.mpr hnot

variable {s' : Server m} {known : Life}

/-- The life goes on where the connection in the table runs through more events. -/
theorem proceed (h : Tracks s id (some known) effects) (events : List (Moment × ConnectionEvent))
    (hplan : s'.toServerPlan = s.toServerPlan) (haccepted : s.accepted ≤ s'.accepted)
    (hconnection : s'.connection? id = (s.connection? id).bind fun c =>
      if (c.run s.dispatcher events).1.isEnded then none
      else some (c.run s.dispatcher events).1) :
    Tracks s' id (some (known.andThen events)) (effects ++
      ((s.connection? id).map fun c => (c.run s.dispatcher events).2).getD []) := by
  have hfound : s.connection? id = known.open? s.toServerPlan := h.connection
  have hdone : effects = (known.outcome s.toServerPlan).2 := h.effects
  have hafter := known.outcome_andThen s.toServerPlan events
  have hopen : (known.andThen events).open? s.toServerPlan = s'.connection? id := by
    rw [hconnection, hfound]
    unfold Life.open?
    rw [hafter]
    generalize known.outcome s.toServerPlan = out
    by_cases hended : out.1.isEnded = true
    · rw [if_pos hended, Connection.run_of_ended hended, if_pos hended]
      rfl
    · rw [if_neg hended]
      rfl
  have hmore : effects ++ ((s.connection? id).map fun c => (c.run s.dispatcher events).2).getD [] =
      ((known.andThen events).outcome s.toServerPlan).2 := by
    rw [hafter, hdone, hfound]
    unfold Life.open?
    generalize known.outcome s.toServerPlan = out
    by_cases hended : out.1.isEnded = true
    · rw [if_pos hended, Connection.run_of_ended hended]
      rfl
    · rw [if_neg hended]
      rfl
  constructor
  case connection =>
    rw [hplan]
    exact hopen.symm
  case effects =>
    rw [hplan]
    exact hmore
  case known =>
    exact ⟨fun _ => Nat.lt_of_lt_of_le (h.known.mp rfl) haccepted, fun _ => rfl⟩

/-- A connection that is left alone lives as before. -/
theorem rest (h : Tracks s id (some known) effects) (hplan : s'.toServerPlan = s.toServerPlan)
    (haccepted : s.accepted ≤ s'.accepted) (hconnection : s'.connection? id = s.connection? id) :
    Tracks s' id (some known) effects := by
  have hproceed := h.proceed [] hplan haccepted (by
    rw [hconnection]
    cases hc : s.connection? id with
    | none => rfl
    | some c =>
      have hopen := h.isEnded_eq hc
      exact (if_neg (Bool.eq_false_iff.mp hopen)).symm)
  have hnone : ((s.connection? id).map fun c =>
      (c.run s.dispatcher []).2).getD [] = ([] : List (ConnectionEffect m)) := by
    cases s.connection? id with
    | none => rfl
    | some c => rfl
  rwa [hnone, List.append_nil, Life.andThen_nil] at hproceed

/-- A connection that is to be closed has been told so at some moment. -/
theorem mark (h : Tracks s id (some known) effects) (now : Moment)
    (hplan : s'.toServerPlan = s.toServerPlan) (haccepted : s.accepted ≤ s'.accepted)
    (hconnection : s'.connection? id =
      (s.connection? id).map fun c => { c with isClosing := true }) :
    Tracks s' id (some (known.andThen [(now, .closing)])) effects := by
  have hrun : ∀ c, s.connection? id = some c →
      c.run s.dispatcher [(now, .closing)] = ({ c with isClosing := true }, []) := by
    intro c hc
    rw [Connection.run, Connection.step_closing (h.isEnded_eq hc)]
    rfl
  have hproceed := h.proceed [(now, .closing)] hplan haccepted (by
    rw [hconnection]
    cases hc : s.connection? id with
    | none => rfl
    | some c =>
      rw [Option.bind_some, hrun c hc]
      exact (if_neg (Bool.eq_false_iff.mp (h.isEnded_eq hc))).symm)
  have hnone : ((s.connection? id).map fun c =>
      (c.run s.dispatcher [(now, .closing)]).2).getD [] = ([] : List (ConnectionEffect m)) := by
    cases hc : s.connection? id with
    | none => rfl
    | some c =>
      rw [Option.map_some, hrun c hc]
      rfl
  rwa [hnone, List.append_nil] at hproceed

/-- A scan closes the connection if it finds it idle, and leaves it alone otherwise. -/
theorem scan (h : Tracks s id (some known) effects) :
    Tracks s.scan.2 id (some (known.andThen (s.marks id))) effects := by
  have hscanned : s.scan.2.connection? id = (s.connection? id).map s.reaped :=
    s.connection?_mapped s.reaped id
  unfold marks
  cases hc : s.connection? id with
  | none =>
    rw [Option.any_none, if_neg Bool.false_ne_true, Life.andThen_nil]
    exact h.rest rfl (Nat.le_refl _) (hscanned.trans (hc ▸ rfl))
  | some c =>
    rw [hc, Option.map_some, reaped] at hscanned
    rw [Option.any_some]
    split
    · rename_i hidle
      rw [if_pos hidle] at hscanned
      exact h.mark s.now rfl (Nat.le_refl _) (hscanned.trans (hc ▸ rfl))
    · rename_i hbusy
      rw [if_neg hbusy] at hscanned
      rw [Life.andThen_nil]
      exact h.rest rfl (Nat.le_refl _) (hscanned.trans hc.symm)

/-- Closing all connections closes each. -/
theorem closeAll (h : Tracks s id (some known) effects)
    (hplan : s'.toServerPlan = s.toServerPlan) (haccepted : s'.accepted = s.accepted)
    (hconnections : s'.connections = s.closeAll.connections) :
    Tracks s' id (some (known.andThen [(s.now, .closing)])) effects := by
  have hclosed : s'.connection? id =
      (s.connection? id).map fun c => { c with isClosing := true } := by
    rw [connection?, hconnections]
    exact s.connection?_mapped (fun c => { c with isClosing := true }) id
  exact h.mark s.now hplan (Nat.le_of_eq haccepted.symm) hclosed

/-- An event on a connection is one of its own life. -/
theorem onConnection (h : Tracks s id (some known) effects) (e : ConnectionEvent) :
    Tracks (s.onConnection id e).1 id (some (known.andThen [(s.now, e)]))
      (effects ++ (s.onConnection id e).2) := by
  obtain ⟨connections, hs⟩ := s.exists_onConnection_eq id e
  have hplan : (s.onConnection id e).1.toServerPlan = s.toServerPlan := by rw [hs]
  have haccepted : (s.onConnection id e).1.accepted = s.accepted := by rw [hs]
  cases hc : s.connection? id with
  | none =>
    have hproceed := h.proceed [(s.now, e)] hplan (Nat.le_of_eq haccepted.symm) (by
      rw [onConnection_of_none hc, hc]
      rfl)
    rw [hc] at hproceed
    rwa [onConnection_of_none hc] at hproceed ⊢
  | some c =>
    have hproceed := h.proceed [(s.now, e)] hplan (Nat.le_of_eq haccepted.symm) (by
      rw [connection?_self hc, hc]
      rfl)
    have hmore : (c.run s.dispatcher [(s.now, e)]).2 = (s.onConnection id e).2 := by
      rw [onConnection_eq hc, Connection.run]
      exact List.append_nil _
    rw [hc, Option.map_some, Option.getD_some, hmore] at hproceed
    exact hproceed

/-- A known connection lives on through every event. -/
theorem step_known (h : Tracks s id (some known) effects) (e : ServerEvent) :
    Tracks (s.step e).1 id (some (known.andThen (s.share id e)))
      (effects ++ effectsOf id (s.step e).2) := by
  have hid : id < s.accepted := h.known.mp rfl
  cases e with
  | accept =>
    change Tracks s.accept.2 id (some (known.andThen [])) (effects ++ [])
    rw [Life.andThen_nil, List.append_nil]
    refine h.rest (plan_step s .accept) ?_ ?_
    · unfold accept
      split
      · exact Nat.le_succ _
      · exact Nat.le_refl _
    · rw [connection?_accept, if_neg fun hboth => Nat.ne_of_gt hid hboth.2, Option.or_none]
  | onConnection other e =>
    change Tracks (s.onConnection other e).1 id
      (some (known.andThen (if other = id then [(s.now, e)] else [])))
      (effects ++ effectsOf id ((s.onConnection other e).2.map (other, ·)))
    by_cases hother : other = id
    · subst hother
      rw [if_pos rfl, effectsOf_self]
      exact h.onConnection e
    · obtain ⟨connections, hs⟩ := s.exists_onConnection_eq other e
      rw [if_neg hother, effectsOf_other hother, Life.andThen_nil, List.append_nil]
      refine h.rest ?_ ?_ (connection?_other hother e)
      · rw [hs]
      · rw [hs]
  | advance nanos =>
    have hmoved : Tracks (s.moved nanos) id (some known) effects :=
      h.rest rfl (Nat.le_refl _) rfl
    change Tracks (s.advance nanos) id _ (effects ++ [])
    rw [List.append_nil, advance, share]
    split
    · exact hmoved.scan
    · rw [Life.andThen_nil]
      exact hmoved
  | scan =>
    change Tracks (if s.isScanning then s.scan.2 else s) id _ (effects ++ [])
    rw [List.append_nil, share]
    split
    · exact h.scan
    · rw [Life.andThen_nil]
      exact h
  | cancel =>
    change Tracks s.cancel id _ (effects ++ [])
    rw [List.append_nil]
    exact h.closeAll rfl rfl rfl
  | stop =>
    change Tracks s.stop id _ (effects ++ [])
    rw [List.append_nil, stop, share]
    split
    · rw [Life.andThen_nil]
      exact h
    · exact h.closeAll rfl rfl rfl

/-- A connection that is not known has not been accepted. -/
theorem accepted_le (h : Tracks s id none effects) : s.accepted ≤ id :=
  Nat.le_of_not_lt fun hlt => Bool.false_ne_true (h.known.mpr hlt)

/-- Nothing becomes known of a connection that is not accepted. -/
theorem wait (h : Tracks s id none effects) (haccepted : s'.accepted ≤ id)
    (hconnection : s'.connection? id = none) : Tracks s' id none effects where
  connection := hconnection
  effects := h.effects
  known := ⟨fun hsome => (nomatch hsome), fun hlt => absurd hlt (Nat.not_lt.mpr haccepted)⟩

/-- A connection that is accepted begins to live. -/
theorem accept (h : Tracks s id none effects) :
    Tracks s.accept.2 id (s.birth? id .accept) effects := by
  have hnone : s.connection? id = none := h.connection
  have hplan : s.accept.2.toServerPlan = s.toServerPlan := plan_step s .accept
  have haccepted : s.accept.2.accepted = if s.isAccepting then s.accepted + 1 else s.accepted := by
    unfold Server.accept
    split
    · rfl
    · rfl
  have hfound := s.connection?_accept id
  rw [hnone, Option.none_or] at hfound
  unfold birth?
  by_cases hborn : s.isAccepting = true ∧ s.accepted = id
  · rw [if_pos hborn] at hfound ⊢
    rw [if_pos hborn.1] at haccepted
    have houtcome : (⟨s.now, if s.isRunning then [] else [(s.now, .closing)]⟩ : Life).outcome
        s.toServerPlan = (s.fresh, []) := by
      rw [fresh]
      cases s.isRunning with
      | true => rfl
      | false => exact Connection.start_closing _ _ _
    constructor
    case connection =>
      rw [hfound, hplan, Option.bind_some, Life.open?, houtcome]
      rfl
    case effects =>
      rw [hplan, Option.map_some, Option.getD_some, houtcome]
      exact h.effects
    case known =>
      rw [haccepted, ← hborn.2]
      exact ⟨fun _ => Nat.lt_succ_self _, fun _ => rfl⟩
  · rw [if_neg hborn] at hfound ⊢
    have hle := h.accepted_le
    refine h.wait ?_ hfound
    rw [haccepted]
    split
    · rename_i haccepting
      exact Nat.lt_of_le_of_ne hle fun he => hborn ⟨haccepting, he⟩
    · exact hle

/-- A connection that is not known begins to live when it is accepted. -/
theorem step_unknown (h : Tracks s id none effects) (e : ServerEvent) :
    Tracks (s.step e).1 id (s.birth? id e) (effects ++ effectsOf id (s.step e).2) := by
  have hnone : s.connection? id = none := h.connection
  have hle := h.accepted_le
  have hmapped (f : Connection → Connection) :=
    (s.connection?_mapped f id).trans (congrArg (Option.map f) hnone)
  have hclosed := hmapped fun c => { c with isClosing := true }
  cases e with
  | accept =>
    change Tracks s.accept.2 id _ (effects ++ [])
    rw [List.append_nil]
    exact h.accept
  | onConnection other e =>
    change Tracks (s.onConnection other e).1 id none
      (effects ++ effectsOf id ((s.onConnection other e).2.map (other, ·)))
    by_cases hother : other = id
    · rw [hother, onConnection_of_none hnone]
      exact (List.append_nil effects).symm ▸ h
    · obtain ⟨connections, hs⟩ := s.exists_onConnection_eq other e
      rw [effectsOf_other hother, List.append_nil]
      refine h.wait ?_ ((connection?_other hother e).trans hnone)
      rw [hs]
      exact hle
  | advance nanos =>
    change Tracks (s.advance nanos) id none (effects ++ [])
    rw [List.append_nil, advance]
    split
    · exact h.wait hle (hmapped _)
    · exact h.wait hle hnone
  | scan =>
    change Tracks (if s.isScanning then s.scan.2 else s) id none (effects ++ [])
    rw [List.append_nil]
    split
    · exact h.wait hle (hmapped _)
    · exact h
  | cancel =>
    change Tracks s.cancel id none (effects ++ [])
    rw [List.append_nil]
    exact h.wait hle hclosed
  | stop =>
    change Tracks s.stop id none (effects ++ [])
    rw [List.append_nil, stop]
    split
    · exact h
    · exact h.wait hle hclosed

/-- Every event is one of the life. -/
theorem step (h : Tracks s id life effects) (e : ServerEvent) :
    Tracks (s.step e).1 id (s.goOn id e life) (effects ++ effectsOf id (s.step e).2) := by
  cases life with
  | none => exact h.step_unknown e
  | some known => exact h.step_known e

/-- A run goes on with the life. -/
theorem run (h : Tracks s id life effects) (events : List ServerEvent) :
    Tracks (s.run events).1 id (s.lifeFrom id life events)
      (effects ++ effectsOf id (s.run events).2) := by
  induction events generalizing s life effects with
  | nil => exact (List.append_nil effects).symm ▸ h
  | cons e rest ih =>
    have hrest := ih (h.step e)
    rw [List.append_assoc, ← effectsOf_append] at hrest
    exact hrest

end Tracks

/-- Of every connection it is known what its life has come to. -/
def Known (s : Server m) : Prop := ∀ id, ∃ life effects, s.Tracks id life effects

namespace Known

/-- It is known at the start. -/
theorem start (p : ServerPlan m) (timestamp : Int64) : Known (Server.start p timestamp) :=
  fun id => ⟨_, _, .start p timestamp id⟩

/-- A connection in the table has not ended. -/
theorem isEnded_eq (h : s.Known) (id : Nat) (c : Connection) (hc : s.connection? id = some c) :
    c.isEnded = false := by
  obtain ⟨life, effects, htracks⟩ := h id
  exact htracks.isEnded_eq hc

/-- Every event keeps it known. -/
theorem step (h : s.Known) (e : ServerEvent) : (s.step e).1.Known := by
  intro id
  obtain ⟨life, effects, htracks⟩ := h id
  exact ⟨_, _, htracks.step e⟩

/-- So does every run. -/
theorem run (h : s.Known) (events : List ServerEvent) : (s.run events).1.Known := by
  intro id
  obtain ⟨life, effects, htracks⟩ := h id
  exact ⟨_, _, htracks.run events⟩

end Known

/-- After every run from its start, a server knows of each connection what its life has come to. -/
theorem tracks_run (p : ServerPlan m) (timestamp : Int64) (events : List ServerEvent) (id : Nat) :
    Tracks ((start p timestamp).run events).1 id ((start p timestamp).life? id events)
      (effectsOf id ((start p timestamp).run events).2) := by
  have h := (Tracks.start p timestamp id).run events
  rwa [List.nil_append] at h

end Server

end RemoteCall
