import RemoteCall.Proofs.Server.Fatal
import RemoteCall.Server.Basic

/-!
# Events and the table of a server

An event on a connection changes the table at the number of that connection and nothing else. What
is done to all connections is done to each, and a connection that is accepted is found under its
number.
-/

namespace RemoteCall

variable {m : Type → Type}

/-- What is done by the connection of a number, in order. -/
def effectsOf (id : Nat) (effects : List (Nat × ConnectionEffect m)) :
    List (ConnectionEffect m) :=
  effects.filterMap fun (other, effect) => if other = id then some effect else none

/-- What a connection does later stands behind what it did before. -/
theorem effectsOf_append (id : Nat) (effects more : List (Nat × ConnectionEffect m)) :
    effectsOf id (effects ++ more) = effectsOf id effects ++ effectsOf id more :=
  List.filterMap_append

/-- What a connection does is done under its number. -/
theorem effectsOf_self (id : Nat) (effects : List (ConnectionEffect m)) :
    effectsOf id (effects.map (id, ·)) = effects := by
  rw [effectsOf, List.filterMap_map]
  have hsome : (fun effect => if id = id then some effect else none) =
      (some : ConnectionEffect m → _) := funext fun _ => if_pos rfl
  exact (congrArg (List.filterMap · effects) hsome).trans List.filterMap_some

/-- And under no other. -/
theorem effectsOf_other {id other : Nat} (h : other ≠ id) (effects : List (ConnectionEffect m)) :
    effectsOf id (effects.map (other, ·)) = [] := by
  rw [effectsOf, List.filterMap_map]
  exact List.filterMap_eq_nil_iff.mpr fun _ _ => if_neg h

namespace Server

variable {s : Server m} {id other : Nat}

/-- What is done to all connections is done to each. -/
theorem connection?_mapped (s : Server m) (f : Connection → Connection) (id : Nat) :
    (({ s with connections := s.connections.map fun (i, c) => (i, f c) } : Server m).connection?
      id) = (s.connection? id).map f := by
  rw [connection?, connection?, List.find?_map, Option.map_map, Option.map_map]
  rfl

/-- A new connection is found under its number. -/
theorem connection?_accept (s : Server m) (id : Nat) :
    s.accept.2.connection? id = (s.connection? id).or
      (if s.isAccepting = true ∧ s.accepted = id then some s.fresh else none) := by
  unfold accept
  split
  · rename_i haccepting
    rw [connection?, connection?, List.find?_append, Option.map_or]
    by_cases hid : s.accepted = id
    · rw [if_pos ⟨haccepting, hid⟩, List.find?_cons, beq_iff_eq.mpr hid]
      rfl
    · rw [if_neg fun hboth => hid hboth.2, List.find?_cons, beq_eq_false_iff_ne.mpr hid]
      rfl
  · rename_i hnot
    rw [if_neg fun hboth => hnot hboth.1, Option.or_none]

/-- A connection that is there after one has been accepted was there, or is the new one. -/
theorem or_fresh_of_accept {c : Connection} (h : s.accept.2.connection? id = some c) :
    s.connection? id = some c ∨ c = s.fresh := by
  rw [connection?_accept] at h
  rcases Option.or_eq_some_iff.mp h with hold | ⟨-, hnew⟩
  · exact .inl hold
  · split at hnew
    · exact .inr (Option.some.inj hnew).symm
    · cases hnew

/-- Accepting changes nothing but the table and the next number. -/
theorem exists_accept_eq (s : Server m) :
    ∃ accepted connections, s.accept.2 = { s with accepted, connections } := by
  unfold accept
  split
  · exact ⟨_, _, rfl⟩
  · exact ⟨s.accepted, s.connections, rfl⟩

/-- The table after something has happened to a connection in it. -/
theorem onConnection_eq {c : Connection} (h : s.connection? id = some c) (e : ConnectionEvent) :
    s.onConnection id e = ({ s with
      connections :=
        if (c.step s.dispatcher s.now e).1.isEnded then s.connections.filter (·.1 != id)
        else s.connections.map fun entry =>
          if entry.1 == id then (entry.1, (c.step s.dispatcher s.now e).1) else entry },
      (c.step s.dispatcher s.now e).2) := by
  rw [onConnection, h]

/-- Nothing happens to a connection that is not in the table. -/
theorem onConnection_of_none (h : s.connection? id = none) (e : ConnectionEvent) :
    s.onConnection id e = (s, []) := by
  rw [onConnection, h]

/-- A connection that is put in place of another stands under the same number. -/
theorem key_comp_replaced (id other : Nat) (c : Connection) :
    ((·.1 == id) ∘ fun entry : Nat × Connection =>
      if entry.1 == other then (entry.1, c) else entry) = (·.1 == id) := by
  funext entry
  dsimp only [Function.comp_apply]
  split
  · rfl
  · rfl

/-- An event on one connection leaves every other as it is. -/
theorem connection?_other (h : other ≠ id) (e : ConnectionEvent) :
    (s.onConnection other e).1.connection? id = s.connection? id := by
  cases hc : s.connection? other with
  | none => rw [onConnection_of_none hc]
  | some c =>
    rw [onConnection_eq hc, connection?, connection?]
    dsimp only
    split
    · rw [find?_filter_other h]
    · rw [List.find?_map, key_comp_replaced]
      cases hfound : s.connections.find? (·.1 == id) with
      | none => rfl
      | some entry =>
        have hid : entry.1 = id := key_of_find? hfound
        have hne : ¬ (entry.1 == other) = true := fun hbeq =>
          h ((beq_iff_eq.mp hbeq).symm.trans hid)
        rw [Option.map_some, if_neg hne]

/-- A connection takes its own steps, and leaves the table when it ends. -/
theorem connection?_self {c : Connection} (h : s.connection? id = some c) (e : ConnectionEvent) :
    (s.onConnection id e).1.connection? id =
      if (c.step s.dispatcher s.now e).1.isEnded then none
      else some (c.step s.dispatcher s.now e).1 := by
  rw [onConnection_eq h, connection?]
  dsimp only
  split
  · rw [find?_filter_self]
    rfl
  · obtain ⟨entry, hfound, -⟩ := Option.map_eq_some_iff.mp h
    have hid : entry.1 = id := key_of_find? hfound
    rw [List.find?_map, key_comp_replaced, hfound, Option.map_some, Option.map_some,
      if_pos (beq_iff_eq.mpr hid)]

/-- A connection that is there after an event on one is another that was there, or what that event
has made of its own. -/
theorem or_step_of_onConnection {c : Connection} {e : ConnectionEvent}
    (h : (s.onConnection other e).1.connection? id = some c) :
    s.connection? id = some c ∨ ∃ old, s.connection? id = some old ∧
      (old.step s.dispatcher s.now e).1 = c ∧ c.ending = none := by
  by_cases hother : other = id
  · subst hother
    cases hold : s.connection? other with
    | none =>
      rw [onConnection_of_none hold, hold] at h
      cases h
    | some old =>
      rw [connection?_self hold] at h
      split at h
      · cases h
      · rename_i hopen
        cases h
        exact .inr ⟨old, rfl, rfl, Connection.ending_of_open (Bool.eq_false_iff.mpr hopen)⟩
  · rw [connection?_other hother] at h
    exact .inl h

/-- An event on a connection changes nothing but the table. -/
theorem exists_onConnection_eq (s : Server m) (id : Nat) (e : ConnectionEvent) :
    ∃ connections, (s.onConnection id e).1 = { s with connections } := by
  cases hc : s.connection? id with
  | none => exact ⟨s.connections, congrArg Prod.fst (onConnection_of_none hc e)⟩
  | some c => exact ⟨_, congrArg Prod.fst (onConnection_eq hc e)⟩

/-- Settings and services stay as they are. -/
theorem plan_step (s : Server m) (e : ServerEvent) :
    (s.step e).1.toServerPlan = s.toServerPlan := by
  cases e with
  | accept =>
    obtain ⟨accepted, connections, hs⟩ := s.exists_accept_eq
    change s.accept.2.toServerPlan = _
    rw [hs]
  | onConnection id e =>
    obtain ⟨connections, hs⟩ := s.exists_onConnection_eq id e
    change (s.onConnection id e).1.toServerPlan = _
    rw [hs]
  | advance nanos =>
    rw [step, advance]
    split
    · rfl
    · rfl
  | scan =>
    rw [step]
    dsimp only
    split
    · rfl
    · rfl
  | cancel => rfl
  | stop =>
    rw [step, stop]
    split
    · rfl
    · rfl

/-- So they do in a run. -/
theorem plan_run (s : Server m) (events : List ServerEvent) :
    (s.run events).1.toServerPlan = s.toServerPlan := by
  induction events generalizing s with
  | nil => rfl
  | cons e rest ih => exact (ih _).trans (s.plan_step e)

/-- A run in two stretches. -/
theorem run_append (s : Server m) (before after : List ServerEvent) :
    s.run (before ++ after) =
      (((s.run before).1.run after).1, (s.run before).2 ++ ((s.run before).1.run after).2) := by
  induction before generalizing s with
  | nil => rfl
  | cons e rest ih =>
    rw [List.cons_append, run, run]
    dsimp only
    rw [ih, List.append_assoc]

end Server

end RemoteCall
