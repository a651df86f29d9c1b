import RemoteCall.Proofs.Server.Idleness
import RemoteCall.Proofs.Server.Lifecycle

/-!
# The search for idle connections

A scan closes a connection exactly if it is not to be closed yet, no request that it has admitted is
without its response, and its last response, or its acceptance before the first, is as old as idle
connections may get. It does nothing else, so a second one at the same moment finds none. Scans fall
due at the multiples of the scan interval, and a connection that has been idle for so long by the
last of these is to be closed (`Punctual`).
-/

namespace RemoteCall

variable {m : Type → Type}

namespace Life

/-- The requests that a connection has admitted and not answered, each with its ticket. -/
def unanswered (p : ServerPlan m) (life : Life) : List (Nat × Request) :=
  (Connection.start p.settings.maxFrameSize life.opened).unanswered p.dispatcher life.events

/-- What a connection has written, each response at its moment. -/
def written (p : ServerPlan m) (life : Life) : List (Moment × Response) :=
  (Connection.start p.settings.maxFrameSize life.opened).writtenAt p.dispatcher life.events

/-- When a connection has written its last response, or was accepted if it has written none. -/
def lastWritten (p : ServerPlan m) (life : Life) : Moment :=
  RemoteCall.lastWritten life.opened (life.written p)

/-- Whether a connection has answered all that it has admitted, and has written nothing for as long
as a connection may be idle. -/
structure IsIdle (p : ServerPlan m) (life : Life) (now : Moment) : Prop where
  answered : life.unanswered p = []
  quiet : (life.lastWritten p).ticks + p.settings.keepAlive.nanos ≤ now.ticks

end Life

/-- Idle connections are looked for if they may not be idle for ever. -/
theorem ServerSettings.keepAlive_pos {settings : ServerSettings}
    (hreaping : settings.isReaping = true) : 0 < settings.keepAlive.nanos := by
  rw [isReaping, Bool.not_eq_true'] at hreaping
  exact Nat.pos_of_ne_zero (beq_eq_false_iff_ne.mp hreaping)

namespace Server

variable {s t : Server m} {id : Nat} {c : Connection} {lives : Nat → Option Life}

/-- The server at which an event makes a scan take place, if it does. -/
def scanned? (s : Server m) : ServerEvent → Option (Server m)
  | .advance nanos => if s.isScanDue nanos then some (s.moved nanos) else none
  | .scan => if s.isScanning then some s else none
  | _ => none

/-- The numbers of the connections that a scan closes: they are to be closed after it, and not
before. -/
def closedByScan (s : Server m) : List Nat :=
  s.ids.filter fun id =>
    (s.connection? id).any (!·.isClosing) && (s.scan.2.connection? id).any (·.isClosing)

/-- When a scan has been due for the last time, in nanoseconds since the server started. -/
def lastDue (s : Server m) : Nat :=
  s.now.ticks / s.settings.scanInterval.nanos * s.settings.scanInterval.nanos

/-- A scan takes place when one falls due. -/
theorem scanned?_of_due {nanos : Nat} (h : s.isScanDue nanos = true) :
    s.scanned? (.advance nanos) = some (s.moved nanos) := by
  rw [scanned?, if_pos h]

/-- An event at which a scan takes place does nothing else but move the clock. -/
theorem step_of_scanned {e : ServerEvent} (h : s.scanned? e = some t) :
    s.step e = (t.scan.2, []) ∧ ∃ now, t = { s with now } := by
  cases e with
  | advance nanos =>
    change (if s.isScanDue nanos then some (s.moved nanos) else none) = some t at h
    split at h
    · rename_i hdue
      cases h
      exact ⟨congrArg (·, []) (if_pos hdue), _, rfl⟩
    · cases h
  | scan =>
    change (if s.isScanning then some s else none) = some t at h
    split at h
    · rename_i hscanning
      cases h
      exact ⟨congrArg (·, []) (if_pos hscanning), _, rfl⟩
    · cases h
  | _ => cases h

/-- A scan leaves all as it is but the marks of connections. -/
theorem connection?_scan (s : Server m) (id : Nat) :
    s.scan.2.connection? id = (s.connection? id).map s.reaped :=
  s.connection?_mapped s.reaped id

/-- What a scan does to a connection marks it or does nothing. -/
theorem reaped_eq (s : Server m) (c : Connection) :
    s.reaped c = { c with isClosing := c.isClosing || s.isReapable c } := by
  unfold reaped
  cases s.isReapable c with
  | true =>
    rw [Bool.or_true]
    rfl
  | false =>
    rw [Bool.or_false]
    rfl

/-- A connection is closed by a scan exactly if it can be. -/
theorem isReapable_eq (s : Server m) (c : Connection) :
    s.isReapable c = (!c.isClosing && (s.reaped c).isClosing) := by
  rw [reaped_eq]
  unfold isReapable
  cases c.isClosing with
  | true => rfl
  | false => rfl

/-- What a scan has left cannot be closed by another one. -/
theorem isReapable_reaped (s : Server m) (c : Connection) : s.isReapable (s.reaped c) = false := by
  cases hreapable : s.isReapable c with
  | true =>
    unfold reaped
    rw [if_pos hreapable]
    rfl
  | false =>
    unfold reaped
    rw [if_neg (Bool.eq_false_iff.mp hreapable)]
    exact hreapable

/-- The numbers that a scan closes are those whose connections can be closed. -/
theorem mem_closedByScan_iff :
    id ∈ s.closedByScan ↔ ∃ c, s.connection? id = some c ∧ s.isReapable c = true := by
  rw [closedByScan, List.mem_filter, mem_ids_iff, connection?_scan]
  cases hc : s.connection? id with
  | none => exact ⟨fun h => absurd h.1 Bool.false_ne_true, fun ⟨_, h, _⟩ => (nomatch h)⟩
  | some c =>
    rw [Option.map_some, Option.any_some, Option.any_some, ← isReapable_eq]
    exact ⟨fun h => ⟨c, rfl, h.2⟩, fun ⟨_, he, h⟩ => ⟨rfl, Option.some.inj he ▸ h⟩⟩

/-- A scan counts the connections that it closes. -/
theorem scan_count (h : s.ids.Nodup) : s.scan.1 = s.closedByScan.length := by
  rw [closedByScan, ← List.countP_eq_length_filter, ids, List.countP_map]
  refine List.countP_congr fun entry hentry => ?_
  have hfound : s.connection? entry.1 = some entry.2 := by
    rw [connection?, find?_key_of_mem h hentry]
    rfl
  dsimp only [Function.comp_apply]
  rw [connection?_scan, hfound, Option.map_some, Option.any_some, Option.any_some,
    ← isReapable_eq]

/-- A second scan at the same moment closes nothing. -/
theorem scan_scan (s : Server m) : s.scan.2.scan = (0, s.scan.2) := by
  have hnone : ∀ c, s.scan.2.isReapable (s.reaped c) = false := s.isReapable_reaped
  have hsame : ∀ c, s.scan.2.reaped (s.reaped c) = s.reaped c := fun c =>
    if_neg (Bool.eq_false_iff.mp (hnone c))
  have hcount : s.scan.2.scan.1 = 0 := by
    refine List.countP_eq_zero.mpr fun entry hentry => ?_
    obtain ⟨old, -, rfl⟩ := List.mem_map.mp hentry
    exact Bool.eq_false_iff.mp (hnone old.2)
  have htable : s.scan.2.scan.2.connections = s.scan.2.connections := by
    refine (List.map_map ..).trans (List.map_congr_left fun entry _ => ?_)
    exact congrArg (Prod.mk entry.1) (hsame entry.2)
  exact Prod.ext hcount (congrArg (fun connections => { s.scan.2 with connections }) htable)

/-- Whether a scan can close a connection is told by what the connection has done. -/
theorem isReapable_iff {unanswered : List (Nat × Request)} {last : Moment}
    (h : c.Tells unanswered last) (hreaping : s.settings.isReaping = true) :
    s.isReapable c = true ↔ c.isClosing = false ∧ unanswered = [] ∧
      last.ticks + s.settings.keepAlive.nanos ≤ s.now.ticks := by
  have hpositive := ServerSettings.keepAlive_pos hreaping
  rw [isReapable, Activity.isIdle, Activity.idleFor, h.inFlight, h.lastResponse,
    Bool.and_eq_true, Bool.and_eq_true, Bool.not_eq_true', beq_iff_eq, List.length_eq_zero_iff,
    decide_eq_true_iff]
  dsimp only
  refine and_congr_right fun _ => and_congr_right fun _ => ?_
  omega

/-- What the connections in a table show is true of their lives. -/
def Observed (p : ServerPlan m) (lives : Nat → Option Life) (s : Server m) : Prop :=
  ∀ id c, s.connection? id = some c → ∃ life, lives id = some life ∧
    (life.outcome p).1 = c ∧ c.Tells (life.unanswered p) (life.lastWritten p)

/-- It is true after every run. -/
theorem observed_run (p : ServerPlan m) (timestamp : Int64) (events : List ServerEvent) :
    Observed p (fun id => (start p timestamp).life? id events)
      ((start p timestamp).run events).1 := by
  intro id c hc
  have htracks := tracks_run p timestamp events id
  have hplan : ((start p timestamp).run events).1.toServerPlan = p := plan_run _ events
  have hopen := htracks.isEnded_eq hc
  have hconnection := htracks.connection
  rw [hc, hplan] at hconnection
  obtain ⟨life, hlife, hfound⟩ := Option.bind_eq_some_iff.mp hconnection.symm
  refine ⟨life, hlife, ?_⟩
  unfold Life.open? at hfound
  split at hfound
  · cases hfound
  · cases hfound
    exact ⟨rfl, Connection.run_tells _ _ _ _ (Connection.ending_of_open hopen)⟩

/-- What a scan does at a server, given the lives of its connections. -/
structure ScansExactly (p : ServerPlan m) (lives : Nat → Option Life) (s : Server m) : Prop where
  /-- It closes a connection exactly if that is not to be closed yet, has answered all that it has
  admitted, and has written nothing for as long as a connection may be idle. -/
  closes : ∀ id, id ∈ s.closedByScan ↔ ∃ c life, s.connection? id = some c ∧
    lives id = some life ∧ c.isClosing = false ∧ life.IsIdle p s.now
  /-- It closes no connection with a request in flight. -/
  unoccupied : ∀ id c, s.connection? id = some c → id ∈ s.closedByScan →
    c.inFlight = [] ∧ c.running = []
  /-- After it every connection that has been idle for so long is to be closed. -/
  leaves : ∀ id c life, s.connection? id = some c → lives id = some life → life.IsIdle p s.now →
    s.scan.2.connection? id = some { c with isClosing := true }
  /-- It leaves everything else as it is. -/
  keeps : (∃ connections, s.scan.2 = { s with connections }) ∧ s.scan.2.ids = s.ids ∧
    ∀ id, id ∉ s.closedByScan → s.scan.2.connection? id = s.connection? id
  /-- It gives the number of connections that it closes. -/
  counts : s.scan.1 = s.closedByScan.length
  /-- A second one at the same moment closes nothing. -/
  settles : s.scan.2.scan = (0, s.scan.2)

/-- What a scan closes has been idle. -/
theorem ScansExactly.idle_of_closed {p : ServerPlan m} (h : ScansExactly p lives s)
    (hid : id ∈ s.closedByScan) : ∃ life, lives id = some life ∧ life.IsIdle p s.now := by
  obtain ⟨c, life, -, hlife, -, hidle⟩ := (h.closes id).mp hid
  exact ⟨life, hlife, hidle⟩

/-- A scan is exact where the activities tell the truth. -/
theorem Observed.scansExactly {p : ServerPlan m} (h : s.Observed p lives)
    (hplan : s.toServerPlan = p) (hids : s.ids.Nodup)
    (hreaping : p.settings.isReaping = true) : ScansExactly p lives s := by
  subst hplan
  have hiff : ∀ id c life, s.connection? id = some c → lives id = some life →
      (s.isReapable c = true ↔ c.isClosing = false ∧ life.IsIdle s.toServerPlan s.now) := by
    intro id c life hc hlife
    obtain ⟨life', hlife', -, htells⟩ := h id c hc
    obtain rfl : life' = life := Option.some.inj (hlife'.symm.trans hlife)
    rw [isReapable_iff htells hreaping]
    exact and_congr_right fun _ =>
      ⟨fun ⟨answered, quiet⟩ => ⟨answered, quiet⟩, fun idle => ⟨idle.answered, idle.quiet⟩⟩
  constructor
  case closes =>
    intro id
    rw [mem_closedByScan_iff]
    constructor
    · rintro ⟨c, hc, hreapable⟩
      obtain ⟨life, hlife, -⟩ := h id c hc
      exact ⟨c, life, hc, hlife, (hiff id c life hc hlife).mp hreapable⟩
    · rintro ⟨c, life, hc, hlife, hidle⟩
      exact ⟨c, hc, (hiff id c life hc hlife).mpr hidle⟩
  case unoccupied =>
    intro id c hc hclosed
    obtain ⟨life, hlife, -, htells⟩ := h id c hc
    obtain ⟨c', hc', hreapable⟩ := mem_closedByScan_iff.mp hclosed
    obtain rfl : c' = c := Option.some.inj (hc'.symm.trans hc)
    have hidle := ((hiff id c' life hc hlife).mp hreapable).2
    have hrunning := htells.running
    rw [hidle.answered, List.map_nil] at hrunning
    have hnone : c'.running = [] := List.map_eq_nil_iff.mp hrunning.eq_nil
    exact ⟨by rw [htells.ids, hnone, List.map_nil], hnone⟩
  case leaves =>
    intro id c life hc hlife hidle
    rw [connection?_scan, hc, Option.map_some, reaped_eq]
    cases hclosing : c.isClosing with
    | true => rfl
    | false =>
      rw [(hiff id c life hc hlife).mpr ⟨hclosing, hidle⟩]
      rfl
  case keeps =>
    refine ⟨⟨_, rfl⟩, s.ids_mapped s.reaped, fun id hnot => ?_⟩
    rw [connection?_scan]
    cases hc : s.connection? id with
    | none => rfl
    | some c =>
      have hbusy : ¬ s.isReapable c = true := fun hreapable =>
        hnot (mem_closedByScan_iff.mpr ⟨c, hc, hreapable⟩)
      rw [Option.map_some, reaped, if_neg hbusy]
  case counts => exact scan_count hids
  case settles => exact s.scan_scan

/-- No connection outlives a scan that was due after it had been idle for long enough. -/
def Punctual (s : Server m) : Prop :=
  ∀ id c, s.connection? id = some c → c.activity.inFlight = 0 →
    c.activity.lastResponse + s.settings.keepAlive.nanos ≤ s.lastDue → c.isClosing = true

namespace Punctual

/-- No connection is there at the start. -/
theorem start (p : ServerPlan m) (timestamp : Int64) : Punctual (Server.start p timestamp) :=
  fun _ _ hc => (nomatch hc)

/-- A scan was due at the latest now. -/
theorem lastDue_le (s : Server m) : s.lastDue ≤ s.now.ticks := Nat.div_mul_le_self _ _

/-- A scan leaves no idle connection. -/
theorem of_scan (s : Server m) : s.scan.2.Punctual := by
  intro id c hc hnone hold
  rw [connection?_scan] at hc
  obtain ⟨old, -, rfl⟩ := Option.map_eq_some_iff.mp hc
  rw [reaped_eq] at hnone hold ⊢
  have hdue : s.lastDue ≤ s.now.ticks := lastDue_le s
  have hpassed : old.activity.lastResponse + s.settings.keepAlive.nanos ≤ s.now.ticks :=
    Nat.le_trans hold hdue
  have hidle : old.activity.isIdle s.now s.settings.keepAlive = true := by
    rw [Activity.isIdle, Activity.idleFor, Bool.and_eq_true, beq_iff_eq, decide_eq_true_iff]
    refine ⟨hnone, ?_⟩
    dsimp only
    omega
  dsimp only
  rw [isReapable, hidle, Bool.and_true, Bool.or_not_self]

/-- If all connections are to be closed, so are the idle ones. -/
theorem of_marked (h : ∀ id c, s.connection? id = some c → c.isClosing = true) : s.Punctual :=
  fun id c hc _ _ => h id c hc

/-- A connection that is accepted is not idle yet. -/
theorem accept (h : s.Punctual) (hkeep : 0 < s.settings.keepAlive.nanos) :
    s.accept.2.Punctual := by
  obtain ⟨accepted, connections, hs⟩ := s.exists_accept_eq
  have hsettings : s.accept.2.settings = s.settings := by rw [hs]
  have hlast : s.accept.2.lastDue = s.lastDue := by rw [hs]; rfl
  intro id c hc hnone hold
  rw [hsettings, hlast] at hold
  rcases or_fresh_of_accept hc with hfound | rfl
  · exact h id c hfound hnone hold
  · have hdue := lastDue_le s
    have hfresh : s.fresh.activity.lastResponse = s.now.ticks := rfl
    omega

/-- A connection that is not left alone is not idle. -/
theorem onConnection (h : s.Punctual)
    (hopen : ∀ id c, s.connection? id = some c → c.isEnded = false)
    (hkeep : 0 < s.settings.keepAlive.nanos) (other : Nat) (e : ConnectionEvent) :
    (s.onConnection other e).1.Punctual := by
  obtain ⟨connections, hs⟩ := s.exists_onConnection_eq other e
  have hsettings : (s.onConnection other e).1.settings = s.settings := by rw [hs]
  have hlast : (s.onConnection other e).1.lastDue = s.lastDue := by rw [hs]; rfl
  intro id c hc hnone hold
  rw [hsettings, hlast] at hold
  rcases or_step_of_onConnection hc with hsame | ⟨old, hfound, rfl, hending⟩
  · exact h id c hsame hnone hold
  · have hended := hopen id old hfound
    rcases Connection.activity_step hended hending with (hactivity | hwritten) | hbusy
    · rw [hactivity] at hnone hold
      exact (Connection.endsOnce_step hended e).closing (h id old hfound hnone hold)
    · have hdue := lastDue_le s
      omega
    · omega

/-- When the clock moves, a scan takes place if one falls due. -/
theorem advance (h : s.Punctual) (hwinding : s.Winding) (hreaping : s.settings.isReaping = true)
    (nanos : Nat) : (s.advance nanos).Punctual := by
  unfold Server.advance
  split
  · exact of_scan _
  · rename_i hnot
    cases hrunning : s.isRunning with
    | false =>
      have hmarked : ∀ id c, (s.moved nanos).connection? id = some c → c.isClosing = true :=
        hwinding.marked hrunning
      exact of_marked hmarked
    | true =>
      have hearly : ¬ s.now.ticks / s.settings.scanInterval.nanos <
          (s.now.ticks + nanos) / s.settings.scanInterval.nanos := by
        intro hlt
        rw [isScanDue, hrunning, hreaping, Bool.true_and, Bool.true_and] at hnot
        exact hnot (decide_eq_true hlt)
      have hdiv := Nat.le_antisymm (Nat.le_of_not_lt hearly)
        (Nat.div_le_div_right (Nat.le_add_right s.now.ticks nanos))
      have hdue : (s.moved nanos).lastDue = s.lastDue := by
        unfold lastDue
        exact congrArg (· * s.settings.scanInterval.nanos) hdiv
      intro id c hc hnone hold
      rw [hdue] at hold
      exact h id c hc hnone hold

/-- Every event keeps this. -/
theorem step (h : s.Punctual) (hwinding : s.Winding)
    (hopen : ∀ id c, s.connection? id = some c → c.isEnded = false)
    (hreaping : s.settings.isReaping = true) (e : ServerEvent) : (s.step e).1.Punctual := by
  have hkeep : 0 < s.settings.keepAlive.nanos := ServerSettings.keepAlive_pos hreaping
  cases e with
  | accept => exact h.accept hkeep
  | onConnection id e => exact h.onConnection hopen hkeep id e
  | advance nanos => exact h.advance hwinding hreaping nanos
  | scan =>
    change (if s.isScanning then s.scan.2 else s).Punctual
    split
    · exact of_scan s
    · exact h
  | cancel => exact of_marked fun _ _ hc => Winding.marked_closeAll s hc
  | stop =>
    change s.stop.Punctual
    unfold stop
    split
    · exact h
    · exact of_marked fun _ _ hc => Winding.marked_closeAll s hc

/-- Every run keeps this. -/
theorem run (h : s.Punctual) (hwinding : s.Winding) (hknown : s.Known)
    (hreaping : s.settings.isReaping = true) (events : List ServerEvent) :
    (s.run events).1.Punctual := by
  induction events generalizing s with
  | nil => exact h
  | cons e rest ih =>
    refine ih (h.step hwinding hknown.isEnded_eq hreaping e) (hwinding.step hknown.isEnded_eq e)
      (hknown.step e) ?_
    exact (congrArg (·.settings.isReaping) (s.plan_step e)).trans hreaping

end Punctual

/-- What holds of a server that looks for idle connections, given the lives of its connections and
all that has been done by them. -/
structure Reaps (p : ServerPlan m) (lives : Nat → Option Life) (s : Server m)
    (effects : List (Nat × ConnectionEffect m)) : Prop where
  /-- A connection in the table is what its life has come to, and has written what is written in
  it. -/
  lived : ∀ id c, s.connection? id = some c → ∃ life, lives id = some life ∧
    (life.outcome p).1 = c ∧ (life.written p).map (·.2) = responses (effectsOf id effects)
  /-- An event at which a scan takes place does what the scan does, and that is exact. -/
  scans : ∀ e t, s.scanned? e = some t → s.step e = (t.scan.2, []) ∧ ScansExactly p lives t
  /-- A connection that had been idle for long enough when a scan was last due is to be closed. -/
  punctual : ∀ id c life, s.connection? id = some c → lives id = some life →
    life.unanswered p = [] →
    (life.lastWritten p).ticks + p.settings.keepAlive.nanos ≤ s.lastDue → c.isClosing = true

/-- **Scans close the idle connections and no others.** After every run of a server that looks for
idle connections: a scan that an event makes take place closes exactly the connections that are not
to be closed yet, have answered all that they have admitted, and have written nothing for as long as
a connection may be idle; it gives their number, leaves all else as it is, and finds none if it is
repeated. A connection that had been idle for so long when a scan was last due is to be closed. -/
theorem run_reaps (p : ServerPlan m) (timestamp : Int64) (events : List ServerEvent)
    (hreaping : p.settings.isReaping = true) :
    Reaps p (fun id => (start p timestamp).life? id events) ((start p timestamp).run events).1
      ((start p timestamp).run events).2 := by
  have hobserved := observed_run p timestamp events
  have htracks := tracks_run p timestamp events
  have hplan : ((start p timestamp).run events).1.toServerPlan = p := plan_run _ events
  have hids : ((start p timestamp).run events).1.ids.Nodup :=
    (List.nodup_append.mp (counted_run p timestamp events).1.nodup).1
  have hpunctual : ((start p timestamp).run events).1.Punctual :=
    (Punctual.start p timestamp).run (.start p timestamp) (.start p timestamp) hreaping events
  generalize ((start p timestamp).run events).1 = s at *
  constructor
  case lived =>
    intro id c hc
    obtain ⟨life, hlife, houtcome, -⟩ := hobserved id c hc
    have hlived : (start p timestamp).life? id events = some life := hlife
    have heffects := (htracks id).effects
    rw [hlived, hplan] at heffects
    refine ⟨life, hlife, houtcome, ?_⟩
    rw [heffects]
    exact Connection.map_snd_writtenAt ..
  case scans =>
    intro e t hscan
    obtain ⟨hstep, now, rfl⟩ := step_of_scanned hscan
    have hlater : Observed p _ { s with now } := hobserved
    exact ⟨hstep, hlater.scansExactly hplan hids hreaping⟩
  case punctual =>
    intro id c life hc hlife hanswered hquiet
    obtain ⟨life', hlife', -, htells⟩ := hobserved id c hc
    obtain rfl : life' = life := Option.some.inj (hlife'.symm.trans hlife)
    have hnone : c.activity.inFlight = 0 := by rw [htells.inFlight, hanswered, List.length_nil]
    refine hpunctual id c hc hnone ?_
    rw [htells.lastResponse, hplan]
    exact hquiet

namespace Idling

/-- A server without services that closes connections after two minutes and scans every five
seconds. -/
def plan : ServerPlan Id := ⟨.standard, ⟨.empty, .standard, Frame.standardLimit⟩⟩

/-- One minute. -/
def minute : Nat := 60000000000

/-- Of three connections the first does nothing, the second has a request in flight, and a minute
later the third has one request refused and another answered. -/
def events : List ServerEvent :=
  [.accept, .accept, .accept, .onConnection 1 (.receive Connection.Repeated.frame),
    .onConnection 1 (.read false), .advance minute,
    .onConnection 2 (.receive (Connection.Repeated.frame ++ Connection.Repeated.frame)),
    .onConnection 2 (.read false), .onConnection 2 (.read false), .onConnection 2 (.unbound 1)]

/-- The server after these. -/
def server : Server Id := ((start plan 0).run events).1

end Idling

/-- After the second minute the scan closes the first connection only. -/
theorem run_reaps_idling :
    Idling.plan.settings.isReaping = true ∧
    Idling.server.scanned? (.advance Idling.minute) = some (Idling.server.moved Idling.minute) ∧
    (Idling.server.moved Idling.minute).closedByScan = [0] ∧
    (Idling.server.moved Idling.minute).scan.1 = 1 ∧
    (∃ life, (start Idling.plan 0).life? 0 Idling.events = some life ∧
      life.IsIdle Idling.plan (Idling.server.moved Idling.minute).now) ∧
    (Idling.server.step (.advance Idling.minute)).1.connections.map
      (fun (id, c) => (id, c.isClosing)) = [(0, true), (1, false), (2, false)] := by
  have hreaping : Idling.plan.settings.isReaping = true := by decide
  have hdue : Idling.server.isScanDue Idling.minute = true := by decide +kernel
  have hscan := scanned?_of_due hdue
  have hclosed : (Idling.server.moved Idling.minute).closedByScan = [0] := by decide +kernel
  have hmem : 0 ∈ (Idling.server.moved Idling.minute).closedByScan := by
    rw [hclosed]
    exact List.mem_singleton_self 0
  obtain ⟨-, hexact⟩ := (run_reaps Idling.plan 0 Idling.events hreaping).scans _ _ hscan
  have hcount : (Idling.server.moved Idling.minute).scan.1 = 1 := by
    rw [hexact.counts, hclosed]
    rfl
  exact ⟨hreaping, hscan, hclosed, hcount, hexact.idle_of_closed hmem, by decide +kernel⟩

end Server

end RemoteCall
