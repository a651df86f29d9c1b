import RemoteCall.Proofs.Server.Lives

/-!
# The table of a server

A connection enters the table under the next number when it is accepted, and leaves it in the step
in which it ends. So the numbers in the table and those of the connections that have ended are
together the numbers that have been given out, each once. Once the server has been told to shut down
every connection in the table is to be closed, and once its loop has ended none is added.
-/

namespace RemoteCall

variable {m : Type → Type}

namespace Connection

variable {d : Dispatcher m} {now : Moment} {c : Connection}

/-- What a step of an open connection tells about its end: it has ended once if it has ended, and it
is still to be closed if it was. -/
structure EndsOnce (c : Connection) (out : Connection × List (ConnectionEffect m)) : Prop where
  counted : out.2.countP ConnectionEffect.isEnd = if out.1.isEnded then 1 else 0
  closing : c.isClosing = true → out.1.isClosing = true

/-- What a connection was told before counts for the end of one that was told the same. -/
theorem EndsOnce.congr {c' : Connection} {out : Connection × List (ConnectionEffect m)}
    (h : EndsOnce c' out) (hclosing : c'.isClosing = c.isClosing) : EndsOnce c out where
  counted := h.counted
  closing := hclosing ▸ h.closing

/-- Answering abandoned requests does not end the connection. -/
theorem unended_abandon (d : Dispatcher m) (now : Moment) (status : Status) (reason : String)
    (ids : List UInt64) (c : Connection) :
    (abandon d now status reason ids c).2.countP ConnectionEffect.isEnd = 0 ∧
      (abandon d now status reason ids c).1.isClosing = c.isClosing := by
  induction ids generalizing c with
  | nil => exact ⟨rfl, rfl⟩
  | cons id rest ih =>
    rw [abandon, write]
    dsimp only
    cases Frame.encode d.maxFrameSize
        (d.reply now.timestamp (.failure id now.timestamp status reason)).2 with
    | error e => exact ⟨rfl, rfl⟩
    | ok bytes => exact ih { c.release id with activity := (c.release id).activity.touch now }

/-- A failure ends the connection once. -/
theorem endsOnce_fail (cause : CallError) : EndsOnce (m := m) c (c.fail d now cause) := by
  obtain ⟨hunended, hclosing⟩ := unended_abandon d now (fatalStatus cause) cause.message
    (c.inFlight.mergeSort (· ≤ ·)) c
  constructor
  · rw [fail]
    dsimp only [finish]
    rw [List.countP_append, hunended]
    rfl
  · exact fun h => hclosing.trans h

/-- A response ends an open connection once if it cannot be written, and otherwise not. -/
theorem endsOnce_respond (hopen : c.ending = none) (r : Response) :
    EndsOnce c (c.respond d now r) := by
  rcases respond_cases d now c r with ⟨bytes, hrespond⟩ | ⟨cause, hrespond⟩
  · rw [hrespond]
    constructor
    · change 0 = if c.ending.isSome then 1 else 0
      rw [hopen]
      rfl
    · exact id
  · rw [hrespond]
    exact ⟨rfl, id⟩

/-- Every step of an open connection ends it once or not at all. -/
theorem endsOnce_step (hended : c.isEnded = false) (e : ConnectionEvent) :
    EndsOnce c (c.step d now e) := by
  have hopen := ending_of_open hended
  have hstep : Stepped d now c _ _ _ (c.step d now e) := step_cases hended
  generalize c.admittedBy d e = entered, c.refusedBy d e = turned, c.addressees d e = addressees,
    c.step d now e = out at hstep ⊢
  cases hstep with
  | @idle c' _ running lastTicket activity ending closing =>
    refine ⟨?_, closing⟩
    change 0 = if c'.ending.isSome then 1 else 0
    rw [ending, hopen]
    rfl
  | refused reader id =>
    have hread : ({ c with reader } : Connection).ending = none := hopen
    exact (endsOnce_respond hread _).congr rfl
  | admitted reader r silent unended =>
    refine ⟨?_, id⟩
    change _ = if c.ending.isSome then 1 else 0
    rw [unended, hopen]
    rfl
  | @completed ticket i r found _ =>
    have hrest : (({ c with running := c.running.filter (·.ticket != i.ticket) } :
        Connection).release r.id).ending = none := hopen
    exact (endsOnce_respond hrest r).congr rfl
  | closed reader => exact ⟨rfl, id⟩
  | failed reader cause =>
    exact (endsOnce_fail (c := { c with reader }) cause).congr rfl

end Connection

/-- The numbers of the connections that have ended, in order. -/
def endings (effects : List (Nat × ConnectionEffect m)) : List Nat :=
  (effects.filter (·.2.isEnd)).map (·.1)

/-- What is done later ends connections later. -/
theorem endings_append (effects more : List (Nat × ConnectionEffect m)) :
    endings (effects ++ more) = endings effects ++ endings more := by
  rw [endings, List.filter_append, List.map_append]
  rfl

/-- A connection ends under its number, as often as it does. -/
theorem endings_self (id : Nat) (effects : List (ConnectionEffect m)) :
    endings (effects.map (id, ·)) =
      List.replicate (effects.countP ConnectionEffect.isEnd) id := by
  rw [endings, List.filter_map, List.map_map, List.countP_eq_length_filter]
  exact List.map_const' ..

namespace Server

variable {s : Server m}

/-- What is noted at the events of a run, in order. -/
def along {α : Type} (note : Server m → ServerEvent → List α) (s : Server m) :
    List ServerEvent → List α
  | [] => []
  | e :: rest => note s e ++ (s.step e).1.along note rest

/-- The numbers in the table. -/
def ids (s : Server m) : List Nat := s.connections.map (·.1)

/-- The numbers that an event adds to the table. -/
def addedBy (s : Server m) (e : ServerEvent) : List Nat :=
  (s.step e).1.ids.filter fun id => id ∉ s.ids

/-- The numbers that an event removes from the table. -/
def removedBy (s : Server m) (e : ServerEvent) : List Nat :=
  s.ids.filter fun id => id ∉ (s.step e).1.ids

/-- A number stands in the table with its connection. -/
theorem mem_ids_iff {id : Nat} : id ∈ s.ids ↔ (s.connection? id).isSome := by
  rw [ids, connection?, Option.isSome_map, List.find?_isSome, List.mem_map]
  exact exists_congr fun entry => and_congr_right fun _ => beq_iff_eq.symm

/-- What an event does to the numbers in the table, and which connections end. -/
inductive Turns (s s' : Server m) : List Nat → Prop
  | same (ids : s'.ids = s.ids) (accepted : s'.accepted = s.accepted) : Turns s s' []
  | added (ids : s'.ids = s.ids ++ [s.accepted]) (accepted : s'.accepted = s.accepted + 1) :
      Turns s s' []
  | removed {id : Nat} (found : id ∈ s.ids) (ids : s'.ids = s.ids.filter (· != id))
      (accepted : s'.accepted = s.accepted) : Turns s s' [id]

/-- What is done to each connection in place leaves the numbers alone. -/
theorem ids_mapped (s : Server m) (f : Connection → Connection) :
    ({ s with connections := s.connections.map fun (i, c) => (i, f c) } : Server m).ids =
      s.ids := by
  rw [ids, List.map_map]
  rfl

/-- An event on a connection removes its number if the connection ends. -/
theorem turns_onConnection (hopen : ∀ id c, s.connection? id = some c → c.isEnded = false)
    (id : Nat) (e : ConnectionEvent) :
    Turns s (s.onConnection id e).1 (endings ((s.onConnection id e).2.map (id, ·))) := by
  cases hc : s.connection? id with
  | none =>
    rw [onConnection_of_none hc]
    exact .same rfl rfl
  | some c =>
    have hends : Connection.EndsOnce c (c.step s.dispatcher s.now e) :=
      Connection.endsOnce_step (hopen id c hc) e
    rw [onConnection_eq hc, endings_self, hends.counted]
    cases (c.step s.dispatcher s.now e).1.isEnded with
    | true =>
      refine .removed (mem_ids_iff.mpr (hc ▸ rfl)) ?_ rfl
      rw [ids, ids, if_pos rfl, List.filter_map]
      rfl
    | false =>
      refine .same ?_ rfl
      rw [ids, ids, if_neg Bool.false_ne_true, List.map_map]
      refine List.map_congr_left fun entry _ => ?_
      dsimp only [Function.comp_apply]
      split
      · rfl
      · rfl

/-- Every event turns the table in one of these ways. -/
theorem turns_step (hopen : ∀ id c, s.connection? id = some c → c.isEnded = false)
    (e : ServerEvent) : Turns s (s.step e).1 (endings (s.step e).2) := by
  cases e with
  | accept =>
    change Turns s s.accept.2 []
    unfold accept
    split
    · exact .added List.map_append rfl
    · exact .same rfl rfl
  | onConnection id e => exact turns_onConnection hopen id e
  | advance nanos =>
    change Turns s (s.advance nanos) []
    unfold advance
    split
    · exact .same ((s.moved nanos).ids_mapped _) rfl
    · exact .same rfl rfl
  | scan =>
    change Turns s (if s.isScanning then s.scan.2 else s) []
    split
    · exact .same (s.ids_mapped _) rfl
    · exact .same rfl rfl
  | cancel => exact .same (s.ids_mapped fun c => { c with isClosing := true }) rfl
  | stop =>
    change Turns s s.stop []
    unfold stop
    split
    · exact .same rfl rfl
    · exact .same (s.ids_mapped fun c => { c with isClosing := true }) rfl

/-- The numbers in the table and those of ended connections are the numbers given out, each once. -/
def Counted (s : Server m) (ended : List Nat) : Prop :=
  (s.ids ++ ended).Perm (List.range s.accepted)

namespace Counted

variable {ended : List Nat} {s' : Server m} {fresh : List Nat}

/-- No number stands in the table twice. -/
theorem nodup (h : s.Counted ended) : (s.ids ++ ended).Nodup :=
  h.nodup_iff.mpr List.nodup_range

/-- A turn of the table keeps the count. -/
theorem turn (h : s.Counted ended) (hturns : Turns s s' fresh) : s'.Counted (ended ++ fresh) := by
  unfold Counted at h ⊢
  cases hturns with
  | same ids accepted =>
    rw [ids, accepted, List.append_nil]
    exact h
  | added ids accepted =>
    rw [ids, accepted, List.append_nil, List.range_succ]
    exact (perm_append_swap _ _ _).trans (h.append_right _)
  | @removed id found ids accepted =>
    have hids : s.ids.Nodup := (List.nodup_append.mp (Counted.nodup h)).1
    have hperm : (s.ids.filter (· != id) ++ [id]).Perm s.ids := by
      rw [← hids.erase_eq_filter]
      exact (List.perm_append_singleton ..).trans (List.perm_cons_erase found).symm
    rw [ids, accepted, ← List.append_assoc]
    exact (perm_append_swap _ _ _).trans ((hperm.append_right _).trans h)

/-- A turn adds the next number or none. -/
theorem added_of_turns (h : s.Counted ended) (hturns : Turns s s' fresh) :
    List.range s.accepted ++ s'.ids.filter (fun id => id ∉ s.ids) = List.range s'.accepted := by
  have hold : ∀ ids : List Nat, ids.Sublist s.ids → ids.filter (fun id => id ∉ s.ids) = [] := by
    intro ids hsub
    refine List.filter_eq_nil_iff.mpr fun id hid hnot => ?_
    exact of_decide_eq_true hnot (hsub.subset hid)
  cases hturns with
  | same ids accepted => rw [ids, accepted, hold _ (.refl _), List.append_nil]
  | added ids accepted =>
    have hnew : s.accepted ∉ s.ids := fun hmem =>
      absurd (h.subset (List.mem_append_left _ hmem)) List.not_mem_range_self
    rw [ids, accepted, List.filter_append, hold _ (.refl _), List.filter_singleton,
      decide_eq_true hnew, List.range_succ]
    rfl
  | @removed id found ids accepted =>
    rw [ids, accepted, hold _ List.filter_sublist, List.append_nil]

/-- A turn removes the number of the connection that ends, or none. -/
theorem removed_of_turns (h : s.Counted ended) (hturns : Turns s s' fresh) :
    s.ids.filter (fun id => id ∉ s'.ids) = fresh := by
  have hkept : (∀ id ∈ s.ids, id ∈ s'.ids) → s.ids.filter (fun id => id ∉ s'.ids) = [] := by
    intro hsub
    exact List.filter_eq_nil_iff.mpr fun id hid hnot => of_decide_eq_true hnot (hsub id hid)
  cases hturns with
  | same ids accepted => exact hkept fun id hid => ids ▸ hid
  | added ids accepted => exact hkept fun id hid => ids ▸ List.mem_append_left _ hid
  | @removed id found ids accepted =>
    have hsame : s.ids.filter (fun other => other ∉ s'.ids) = s.ids.filter (· == id) := by
      refine List.filter_congr fun other hother => ?_
      rw [Bool.eq_iff_iff, decide_eq_true_iff, ids, List.mem_filter, bne_iff_ne, beq_iff_eq]
      exact ⟨fun hnot => Decidable.of_not_not fun hne => hnot ⟨hother, hne⟩,
        fun he hboth => hboth.2 he⟩
    rw [hsame, List.filter_beq,
      List.count_eq_one_of_mem (List.nodup_append.mp (Counted.nodup h)).1 found]
    rfl

/-- A run keeps the count. It adds the numbers that are given out, and removes those of the
connections that end. -/
theorem run (h : s.Counted ended) (hknown : s.Known) (events : List ServerEvent) :
    (s.run events).1.Counted (ended ++ endings (s.run events).2) ∧
      List.range s.accepted ++ s.along addedBy events =
        List.range (s.run events).1.accepted ∧
      s.along removedBy events = endings (s.run events).2 := by
  induction events generalizing s ended with
  | nil => exact ⟨(List.append_nil ended).symm ▸ h, List.append_nil _, rfl⟩
  | cons e rest ih =>
    have hturns := turns_step hknown.isEnded_eq e
    obtain ⟨hcounted, hadded, hremoved⟩ := ih (h.turn hturns) (hknown.step e)
    refine ⟨?_, ?_, ?_⟩
    · rw [List.append_assoc, ← endings_append] at hcounted
      exact hcounted
    · rw [← h.added_of_turns hturns, List.append_assoc] at hadded
      exact hadded
    · have hnow : s.removedBy e = endings (s.step e).2 := h.removed_of_turns hturns
      rw [along, hremoved, hnow, ← endings_append]
      rfl

end Counted

/-- After every run from the start the numbers are counted, and what has been added and removed on
the way is what has been given out and what has ended. -/
theorem counted_run (p : ServerPlan m) (timestamp : Int64) (events : List ServerEvent) :
    ((start p timestamp).run events).1.Counted (endings ((start p timestamp).run events).2) ∧
      (start p timestamp).along addedBy events =
        List.range ((start p timestamp).run events).1.accepted ∧
      (start p timestamp).along removedBy events = endings ((start p timestamp).run events).2 := by
  have hstart : (start p timestamp).Counted [] := .refl _
  exact hstart.run (.start p timestamp) events

/-- How far a server has been shut down: once it has been told, every connection is to be closed,
and its loop does not end before. -/
structure Winding (s : Server m) : Prop where
  marked : s.isRunning = false → ∀ id c, s.connection? id = some c → c.isClosing = true
  told : s.isAccepting = false → s.isRunning = false

namespace Winding

variable {s' : Server m}

/-- A server that starts has not been told. -/
theorem start (p : ServerPlan m) (timestamp : Int64) : Winding (Server.start p timestamp) where
  marked := fun hstopped => (nomatch hstopped)
  told := fun hstopped => (nomatch hstopped)

/-- What leaves connections to be closed as such keeps this. -/
theorem mapped (h : s.Winding) {f : Connection → Connection}
    (hf : ∀ c, c.isClosing = true → (f c).isClosing = true)
    (hconnections : s'.connections = s.connections.map fun (i, c) => (i, f c))
    (hrunning : s'.isRunning = s.isRunning) (haccepting : s'.isAccepting = s.isAccepting) :
    s'.Winding where
  marked := by
    intro hstopped id c hc
    rw [connection?, hconnections] at hc
    have hfound := (s.connection?_mapped f id).symm.trans hc
    obtain ⟨old, hold, rfl⟩ := Option.map_eq_some_iff.mp hfound
    exact hf old (h.marked (hrunning ▸ hstopped) id old hold)
  told := by
    rw [haccepting, hrunning]
    exact h.told

/-- A scan leaves connections to be closed as such. -/
theorem scan (h : s.Winding) : s.scan.2.Winding := by
  refine h.mapped (fun c hclosing => ?_) rfl rfl rfl
  rw [reaped]
  split
  · rfl
  · exact hclosing

/-- Closing all connections marks each. -/
theorem marked_closeAll (s : Server m) {id : Nat} {c : Connection}
    (hc : s.closeAll.connection? id = some c) : c.isClosing = true := by
  have hfound := (s.connection?_mapped (fun c => { c with isClosing := true }) id).symm.trans hc
  obtain ⟨old, -, rfl⟩ := Option.map_eq_some_iff.mp hfound
  rfl

/-- A connection that is accepted late is to be closed. -/
theorem accept (h : s.Winding) : s.accept.2.Winding := by
  obtain ⟨accepted, connections, hs⟩ := s.exists_accept_eq
  constructor
  case marked =>
    intro hstopped id c hc
    have hrunning : s.isRunning = false := by
      rw [hs] at hstopped
      exact hstopped
    rcases or_fresh_of_accept hc with hold | rfl
    · exact h.marked hrunning id c hold
    · rw [fresh, hrunning]
      rfl
  case told =>
    rw [hs]
    exact h.told

/-- A connection that is to be closed stays so. -/
theorem onConnection (h : s.Winding)
    (hopen : ∀ id c, s.connection? id = some c → c.isEnded = false) (other : Nat)
    (e : ConnectionEvent) : (s.onConnection other e).1.Winding := by
  obtain ⟨connections, hs⟩ := s.exists_onConnection_eq other e
  constructor
  case marked =>
    intro hstopped id c hc
    have hrunning : s.isRunning = false := by
      rw [hs] at hstopped
      exact hstopped
    rcases or_step_of_onConnection hc with hsame | ⟨old, hold, rfl, -⟩
    · exact h.marked hrunning id c hsame
    · exact (Connection.endsOnce_step (hopen id old hold) e).closing
        (h.marked hrunning id old hold)
  case told =>
    rw [hs]
    exact h.told

/-- Every event keeps this. -/
theorem step (h : s.Winding) (hopen : ∀ id c, s.connection? id = some c → c.isEnded = false)
    (e : ServerEvent) : (s.step e).1.Winding := by
  cases e with
  | accept => exact h.accept
  | onConnection id e => exact h.onConnection hopen id e
  | advance nanos =>
    change (s.advance nanos).Winding
    have hmoved : (s.moved nanos).Winding := ⟨h.marked, h.told⟩
    unfold advance
    split
    · exact hmoved.scan
    · exact hmoved
  | scan =>
    change (if s.isScanning then s.scan.2 else s).Winding
    split
    · exact h.scan
    · exact h
  | cancel =>
    exact ⟨fun _ _ _ hc => marked_closeAll s hc, fun _ => rfl⟩
  | stop =>
    change s.stop.Winding
    unfold stop
    split
    · exact h
    · rename_i hstopped
      exact ⟨fun _ _ _ hc => marked_closeAll s hc, fun _ => Bool.eq_false_iff.mpr hstopped⟩

/-- Every run keeps this. -/
theorem run (h : s.Winding) (hknown : s.Known) (events : List ServerEvent) :
    (s.run events).1.Winding := by
  induction events generalizing s with
  | nil => exact h
  | cons e rest ih => exact ih (h.step hknown.isEnded_eq e) (hknown.step e)

end Winding

end Server

end RemoteCall
