import RemoteCall.Proofs.Client.Downstream
import RemoteCall.Proofs.Client.Transmission
import RemoteCall.Proofs.Exchange.Verdict
import RemoteCall.Proofs.Server.Upstream
import RemoteCall.Proofs.Wire.Carrying

/-!
# Where the calls are

A call that waits for its response is at one place: its request waits to be handed over or to be
written, or is on its way to the connection, an invocation runs for it, or its response is on its
way to the session. The calls at all these places are those that have a slot. What is known of them
is known of the two ends of the exchange, and of what is in transit between them.
-/

namespace RemoteCall

variable {m : Type → Type}

/-- A call with the invocation that runs for it, and the handler that has started, if there is
one. -/
structure RunningCall (m : Type → Type) where
  call : AcceptedCall
  invocation : Invocation
  work : Option (Work m)

/-- A call with the response that is on its way to it, and the handler that has started for it, if
there is one. -/
structure AnsweredCall (m : Type → Type) where
  call : AcceptedCall
  work : Option (Work m)
  response : Response
  body : List UInt8

/-- The calls that wait, by the place at which they are. -/
structure Stages (m : Type → Type) where
  unqueued : List AcceptedCall
  outbound : List AcceptedCall
  upstream : List AcceptedCall
  running : List (RunningCall m)
  downstream : List (AnsweredCall m)

/-- A call by its caller and its request. -/
def AcceptedCall.asked (call : AcceptedCall) : Nat × Request := (call.slot.caller, call.request)

namespace Stages

/-- No call waits. -/
def empty : Stages m := ⟨[], [], [], [], []⟩

variable (g : Stages m) {call : AcceptedCall} {rest : List AcceptedCall}

/-- All calls that wait. -/
def calls : List AcceptedCall :=
  g.unqueued ++ g.outbound ++ g.upstream ++ g.running.map (·.call) ++ g.downstream.map (·.call)

/-- The handlers that have started for them. -/
def works : List (Work m) :=
  g.running.flatMap (·.work.toList) ++ g.downstream.flatMap (·.work.toList)

/-- How many places there are before the calls at most, up to their being settled. -/
def owed : Nat :=
  5 * g.unqueued.length + 4 * g.outbound.length + 3 * g.upstream.length + 2 * g.running.length +
    g.downstream.length

/-- A call moves on, and these handlers start. -/
structure Moves (g g' : Stages m) (started : List (Work m)) : Prop where
  calls : g'.calls.Perm g.calls
  works : g'.works.Perm (g.works ++ started)
  owed : g'.owed < g.owed

/-- A call that waits to be written is a call. -/
theorem mem_calls_of_outbound (h : call ∈ g.outbound) : call ∈ g.calls := by
  unfold calls
  simp [h]

/-- A call on its way to the server is a call. -/
theorem mem_calls_of_upstream (h : call ∈ g.upstream) : call ∈ g.calls := by
  unfold calls
  simp [h]

/-- A new call waits to be handed over. -/
theorem perm_enter (call : AcceptedCall) :
    ({ g with unqueued := g.unqueued ++ [call] } : Stages m).calls.Perm (call :: g.calls) := by
  classical
  refine List.perm_iff_count.mpr fun other => ?_
  simp only [calls, List.count_append, List.count_cons, List.count_nil]
  omega

/-- A call that is handed over waits to be written. -/
theorem moves_queue (h : g.unqueued.Perm (call :: rest)) :
    g.Moves { g with unqueued := rest, outbound := g.outbound ++ [call] } [] where
  calls := by
    classical
    refine List.perm_iff_count.mpr fun other => ?_
    have hcount := h.count_eq other
    simp only [Stages.calls, List.count_append, List.count_cons, List.count_nil] at hcount ⊢
    omega
  works := .of_eq (List.append_nil g.works).symm
  owed := by
    have hlength := h.length_eq
    simp only [Stages.owed, List.length_append, List.length_cons, List.length_nil] at hlength ⊢
    omega

/-- A call that is written is on its way. -/
theorem moves_write (h : g.outbound = call :: rest) :
    g.Moves { g with outbound := rest, upstream := g.upstream ++ [call] } [] where
  calls := by
    classical
    refine List.perm_iff_count.mpr fun other => ?_
    simp only [Stages.calls, h, List.count_append, List.count_cons, List.count_nil]
    omega
  works := .of_eq (List.append_nil g.works).symm
  owed := by
    simp only [Stages.owed, h, List.length_append, List.length_cons, List.length_nil]
    omega

/-- A call that is accepted runs, with the handler that starts for it. -/
theorem moves_accept (h : g.upstream = call :: rest) (i : Invocation) (work : Option (Work m)) :
    g.Moves { g with upstream := rest, running := g.running ++ [⟨call, i, work⟩] }
      work.toList where
  calls := by
    classical
    refine List.perm_iff_count.mpr fun other => ?_
    simp only [Stages.calls, h, List.map_append, List.map_cons, List.map_nil, List.count_append,
      List.count_cons, List.count_nil]
    omega
  works := by
    classical
    refine List.perm_iff_count.mpr fun other => ?_
    simp only [Stages.works, List.flatMap_append, List.flatMap_cons, List.flatMap_nil,
      List.count_append, List.count_nil]
    omega
  owed := by
    simp only [Stages.owed, h, List.length_append, List.length_cons, List.length_nil]
    omega

/-- The response to a call that is refused is on its way. -/
theorem moves_refuse (h : g.upstream = call :: rest) (r : Response) (body : List UInt8) :
    g.Moves
      { g with upstream := rest, downstream := g.downstream ++ [⟨call, none, r, body⟩] } [] where
  calls := by
    classical
    refine List.perm_iff_count.mpr fun other => ?_
    simp only [Stages.calls, h, List.map_append, List.map_cons, List.map_nil, List.count_append,
      List.count_cons, List.count_nil]
    omega
  works := by
    refine .of_eq ?_
    simp only [Stages.works, List.flatMap_append, List.flatMap_cons, List.flatMap_nil,
      Option.toList_none, List.append_nil]
  owed := by
    simp only [Stages.owed, h, List.length_append, List.length_cons, List.length_nil]
    omega

/-- So is the response to a call that has run. -/
theorem moves_complete {t : RunningCall m} {others : List (RunningCall m)}
    (h : g.running.Perm (t :: others)) (r : Response) (body : List UInt8) :
    g.Moves
      { g with running := others, downstream := g.downstream ++ [⟨t.call, t.work, r, body⟩] }
      [] where
  calls := by
    classical
    refine List.perm_iff_count.mpr fun other => ?_
    have hcount := (h.map (·.call)).count_eq other
    simp only [Stages.calls, List.map_append, List.map_cons, List.map_nil, List.count_append,
      List.count_cons, List.count_nil] at hcount ⊢
    omega
  works := by
    classical
    refine List.perm_iff_count.mpr fun other => ?_
    have hcount := (h.flatMap_right (·.work.toList)).count_eq other
    simp only [Stages.works, List.flatMap_append, List.flatMap_cons, List.flatMap_nil,
      List.count_append, List.count_nil] at hcount ⊢
    omega
  owed := by
    have hlength := h.length_eq
    simp only [Stages.owed, List.length_append, List.length_cons, List.length_nil] at hlength ⊢
    omega

/-- Calls whose responses arrive wait no more. -/
theorem perm_deliver {arriving later : List (AnsweredCall m)}
    (h : g.downstream = arriving ++ later) :
    let g' : Stages m := { g with downstream := later }
    g.calls.Perm (arriving.map (·.call) ++ g'.calls) ∧
      g.works.Perm (arriving.flatMap (·.work.toList) ++ g'.works) := by
  classical
  constructor
  · refine List.perm_iff_count.mpr fun other => ?_
    simp only [calls, h, List.map_append, List.count_append]
    omega
  · refine List.perm_iff_count.mpr fun other => ?_
    simp only [works, h, List.flatMap_append, List.count_append]
    omega

end Stages

/-- What is known of a call that waits: its request has been encoded, and its slot is that of its
request id. -/
structure Partners.Sound (p : Partners m) (call : AcceptedCall) : Prop where
  carries : p.Carries call.request call.body
  requestId : call.slot.requestId = call.request.id

/-- What is known of a table of slots, of the generation given last and of the calls that wait:
these are the calls that have a slot, each under a request id and a generation of its own. -/
structure Partners.Books (p : Partners m) (slots : List Slot) (lastGeneration : Nat)
    (calls : List AcceptedCall) : Prop where
  slots : slots.Perm (calls.map (·.slot))
  distinct : (calls.map (·.slot.requestId)).Nodup
  generations : (calls.map (·.slot.generation)).Nodup
  issued : ∀ call ∈ calls, call.slot.generation ≤ lastGeneration
  sound : ∀ call ∈ calls, p.Sound call

namespace Partners.Books

variable {p : Partners m} {slots : List Slot} {lastGeneration : Nat}
  {calls calls' : List AcceptedCall} {call : AcceptedCall}

/-- The order of the calls does not matter. -/
theorem perm (h : p.Books slots lastGeneration calls) (hcalls : calls'.Perm calls) :
    p.Books slots lastGeneration calls' where
  slots := h.slots.trans (hcalls.symm.map _)
  distinct := (hcalls.map _).nodup_iff.mpr h.distinct
  generations := (hcalls.map _).nodup_iff.mpr h.generations
  issued := fun call hcall => h.issued call (hcalls.mem_iff.mp hcall)
  sound := fun call hcall => h.sound call (hcalls.mem_iff.mp hcall)

/-- No two slots have one request id. -/
theorem distinct_slots (h : p.Books slots lastGeneration calls) :
    (slots.map (·.requestId)).Nodup := by
  have hids := (h.slots.map Slot.requestId).nodup_iff.mpr
  rw [List.map_map] at hids
  exact hids h.distinct

/-- The slot of a call is found under its request id. -/
theorem find?_eq (h : p.Books slots lastGeneration calls) (hcall : call ∈ calls) :
    slots.find? (·.requestId == call.request.id) = some call.slot := by
  have hmem : call.slot ∈ slots := h.slots.mem_iff.mpr (List.mem_map.mpr ⟨call, hcall, rfl⟩)
  rw [← (h.sound call hcall).requestId]
  exact find?_key_of_mem h.distinct_slots hmem

/-- A new call takes a slot under the next generation. -/
theorem cons (h : p.Books slots lastGeneration calls) (hsound : p.Sound call)
    (hfree : slots.find? (·.requestId == call.request.id) = none)
    (hgeneration : call.slot.generation = lastGeneration + 1) :
    p.Books (slots ++ [call.slot]) (lastGeneration + 1) (call :: calls) where
  slots := (h.slots.append_right [call.slot]).trans (List.perm_append_singleton _ _)
  distinct := by
    refine List.nodup_cons.mpr ⟨fun hid => ?_, h.distinct⟩
    obtain ⟨other, hother, hsame⟩ := List.mem_map.mp hid
    have hid : other.request.id = call.request.id :=
      (h.sound other hother).requestId.symm.trans (hsame.trans hsound.requestId)
    have hslot := h.find?_eq hother
    rw [hid, hfree] at hslot
    cases hslot
  generations := by
    refine List.nodup_cons.mpr ⟨fun hmem => ?_, h.generations⟩
    obtain ⟨other, hother, hsame⟩ := List.mem_map.mp hmem
    have hle := h.issued other hother
    have hnewer : other.slot.generation = lastGeneration + 1 := hsame.trans hgeneration
    omega
  issued := List.forall_mem_cons.mpr
    ⟨Nat.le_of_eq hgeneration, fun other hother => Nat.le_succ_of_le (h.issued other hother)⟩
  sound := List.forall_mem_cons.mpr ⟨hsound, h.sound⟩

/-- A call that waits no more gives up its slot. -/
theorem tail (h : p.Books slots lastGeneration (call :: calls)) :
    p.Books (slots.filter (·.requestId != call.request.id)) lastGeneration calls where
  slots := by
    have hslot := perm_cons_filter_key h.distinct_slots (h.find?_eq List.mem_cons_self)
    exact (hslot.symm.trans h.slots).cons_inv
  distinct := (List.nodup_cons.mp h.distinct).2
  generations := (List.nodup_cons.mp h.generations).2
  issued := fun other hother => h.issued other (List.mem_cons_of_mem call hother)
  sound := fun other hother => h.sound other (List.mem_cons_of_mem call hother)

/-- No invocation runs under the request id of a call that is on its way. -/
theorem fresh {g : Stages m} {later : List AcceptedCall} (h : p.Books slots lastGeneration g.calls)
    (hfirst : g.upstream = call :: later) :
    call.request.id ∉ g.running.map (·.call.request.id) := by
  have hone : [call].Sublist (g.unqueued ++ g.outbound ++ g.upstream) :=
    List.singleton_sublist.mpr (by simp [hfirst])
  have hsub : (call :: g.running.map (·.call)).Sublist g.calls :=
    (hone.append_right (g.running.map RunningCall.call)).trans
      (List.sublist_append_left _ (g.downstream.map AnsweredCall.call))
  have hnodup := (hsub.map (·.slot.requestId)).nodup h.distinct
  intro hid
  obtain ⟨t, ht, hsame⟩ := List.mem_map.mp hid
  have htcall : t.call ∈ g.running.map (·.call) := List.mem_map.mpr ⟨t, ht, rfl⟩
  have hcall := h.sound call (hsub.mem List.mem_cons_self)
  have hother := h.sound t.call (hsub.mem (List.mem_cons_of_mem call htcall))
  refine (List.nodup_cons.mp hnodup).1 (List.mem_map.mpr ⟨t.call, htcall, ?_⟩)
  exact hother.requestId.trans (hsame.trans hcall.requestId.symm)

end Partners.Books

/-- What is known of a session and the calls that wait. -/
structure Partners.HoldsSession (p : Partners m) (s : Session) (g : Stages m) : Prop where
  settings : s.settings = p.settings
  codec : s.codec = p.dispatcher.codec
  isOpen : s.closeReason = none
  isWriting : s.isWriting = true
  /-- The reader keeps to the limit of the session, and no frame is left in it. -/
  limit : s.reader.limit = p.settings.maxFrameSize
  settled : s.reader.Settled
  unqueued : s.unqueued = g.unqueued.map AcceptedCall.outbound
  outbound : s.outbound = g.outbound.map AcceptedCall.outbound
  books : p.Books s.slots s.lastGeneration g.calls

/-- What is known of a call that runs. -/
structure Partners.Runs (p : Partners m) (t : RunningCall m) : Prop where
  isMatch : t.call.request.isMatch = true
  request : t.invocation.request =
    { t.call.request with arguments := t.invocation.request.arguments }
  alike : Graph.Alike t.call.request.arguments t.invocation.request.arguments
  isBound : t.invocation.isBound = (p.dispatcher.method? t.call.request).isSome
  work : t.work = (p.dispatcher.method? t.call.request).map fun f =>
    ⟨t.invocation, f, t.invocation.request.arguments⟩

namespace Partners.Runs

variable {p : Partners m} {t : RunningCall m}

/-- The report on an invocation with a handler tells what its call comes to. -/
theorem agrees_report (h : p.Runs t) (hbound : t.invocation.isBound = true) (timestamp : Int64) :
    p.Agrees t.call.request t.work
      (t.invocation.request.report timestamp (p.outcome t.invocation)).payload? := by
  obtain ⟨f, hf⟩ := Option.isSome_iff_exists.mp (h.isBound.symm.trans hbound)
  have hwork := h.work
  rw [hf, Option.map_some] at hwork
  rw [hwork]
  exact .of_report h.isMatch ⟨hf, h.request, h.alike⟩ timestamp

/-- So does the refusal of one without. -/
theorem agrees_lookupRefusal (h : p.Runs t) (hbound : t.invocation.isBound = false)
    (timestamp : Int64) :
    p.Agrees t.call.request t.work
      (t.invocation.request.lookupRefusal timestamp).payload? := by
  have hnone := Option.isSome_eq_false_iff.mp (h.isBound.symm.trans hbound)
  have hmethod := Option.isNone_iff_eq_none.mp hnone
  have hwork := h.work
  rw [hmethod, Option.map_none] at hwork
  rw [hwork]
  exact .lookupError _ h.isMatch hmethod

end Partners.Runs

/-- What is known of a response that is on its way and of its call. -/
structure Partners.Answers (p : Partners m) (a : AnsweredCall m) : Prop where
  id : a.response.id = a.call.request.id
  returns : p.Returns a.response a.body
  agrees : p.Agrees a.call.request a.work a.response.payload?

/-- What is known of a connection, the calls that run there and those that it has answered. -/
structure Partners.HoldsConnection (p : Partners m) (c : Connection)
    (served : List (RunningCall m)) (answered : List (AnsweredCall m)) : Prop where
  isOpen : c.ending = none
  limit : c.reader.limit = p.dispatcher.maxFrameSize
  running : c.running = served.map (·.invocation)
  accounted : ∃ received written, Connection.Accounted c received written
  runs : ∀ t ∈ served, p.Runs t
  answers : ∀ a ∈ answered, p.Answers a

/-- What is known of an exchange and the calls that wait. -/
structure Partners.Holds (p : Partners m) (x : Exchange) (g : Stages m) : Prop where
  session : p.HoldsSession x.session g
  connection : p.HoldsConnection x.connection g.running g.downstream
  up : x.connection.reader.Carries x.upstream (g.upstream.map (·.body))
  down : x.session.reader.Carries x.downstream (g.downstream.map (·.body))

end RemoteCall
