import RemoteCall.Proofs.Exchange.Runs

/-!
# Coming to rest

An exchange is at rest if and only if no call waits. As long as one does, there is something that
can happen and takes a call further, and a call can be taken further only so often. So whatever has
happened, an exchange can come to rest without a new call.
-/

namespace RemoteCall

variable {m : Type → Type}

/-- What is asked in two stretches is asked one after the other. -/
theorem asked_append (events more : List (Moment × ExchangeEvent)) :
    asked (events ++ more) = asked events ++ asked more :=
  List.flatMap_append

/-- A run goes on from where its first part ends. -/
theorem Exchange.run_append (p : Partners m) (x : Exchange)
    (events more : List (Moment × ExchangeEvent)) :
    (x.run p (events ++ more)).1 = ((x.run p events).1.run p more).1 := by
  induction events generalizing x with
  | nil => rfl
  | cons event rest ih => exact ih (x.step p event.1 event.2).1

namespace Partners

variable {p : Partners m} {x : Exchange} {g : Stages m}

/-- So does what is asked for of its events. -/
theorem AdmitsRun.behind {events more : List (Moment × ExchangeEvent)}
    (h : p.AdmitsRun x (events ++ more)) : p.AdmitsRun (x.run p events).1 more := by
  induction events generalizing x with
  | nil => exact h
  | cons event rest ih => exact ih h.2

namespace Holds

/-- At rest no call waits any more. -/
theorem eq_empty (h : p.Holds x g) (hrest : x.AtRest) : g = .empty := by
  have hunqueued : g.unqueued = [] :=
    List.map_eq_nil_iff.mp (h.session.unqueued.symm.trans hrest.unqueued)
  have houtbound : g.outbound = [] :=
    List.map_eq_nil_iff.mp (h.session.outbound.symm.trans hrest.outbound)
  have hup := h.up
  rw [hrest.upstream] at hup
  have hupstream : g.upstream = [] := List.map_eq_nil_iff.mp (hup.eq_nil_of_next hrest.unread)
  have hrunning : g.running = [] :=
    List.map_eq_nil_iff.mp (h.connection.running.symm.trans hrest.running)
  have hdown := h.down
  rw [hrest.downstream] at hdown
  have hdownstream : g.downstream = [] :=
    List.map_eq_nil_iff.mp (hdown.eq_nil h.session.settled)
  obtain ⟨unqueued, outbound, upstream, running, downstream⟩ := g
  subst hunqueued houtbound hupstream hrunning hdownstream
  rfl

/-- Where no call waits the exchange is at rest. -/
theorem atRest (h : p.Holds x .empty) : x.AtRest where
  unqueued := h.session.unqueued
  outbound := h.session.outbound
  upstream := h.up.transit_eq_nil
  unread := by
    rcases h.up.next.2 with ⟨hnone, -⟩ | ⟨body, rest, -, hbodies, -⟩
    · exact hnone
    · cases hbodies
  running := h.connection.running
  downstream := h.down.transit_eq_nil

/-- A call that is on its way is read once all bytes have arrived. -/
theorem exists_moved_upstream (h : p.Holds x g) (hagreed : p.Agreed) (now : Moment)
    (hwaits : g.upstream ≠ [])
    (hadmits : ∀ events, asked events = [] → p.AdmitsRun x events) :
    ∃ events g', asked events = [] ∧ g'.owed < g.owed ∧
      p.Advances g g' [] [] (x.run p events) := by
  have harrive : p.Advances g g [] [] (x.step p now (.arrive x.upstream.length)) :=
    h.arrive x.upstream.length
  have hadmitted := hadmits [(now, .arrive x.upstream.length), (now, .read)] rfl
  have hread : p.Progresses g _ ((x.step p now (.arrive x.upstream.length)).1.step p now .read) :=
    harrive.holds.read hagreed hadmitted.2.1.response
  have hup := harrive.holds.up
  have hall : (x.step p now (.arrive x.upstream.length)).1.upstream = [] := List.drop_length
  rw [hall] at hup
  obtain ⟨g', hless, hadvances⟩ := hread.exists_moved fun hnone =>
    hwaits (List.map_eq_nil_iff.mp (hup.eq_nil_of_next hnone))
  exact ⟨[(now, .arrive x.upstream.length), (now, .read)], g', rfl, hless,
    harrive.trans hadvances.run_one⟩

/-- A call that runs is answered once its handler ends, or at once if it has none. -/
theorem exists_moved_running (h : p.Holds x g) (hagreed : p.Agreed) (now : Moment)
    {t : RunningCall m} (ht : t ∈ g.running)
    (hadmits : ∀ events, asked events = [] → p.AdmitsRun x events) :
    ∃ events g', asked events = [] ∧ g'.owed < g.owed ∧
      p.Advances g g' [] [] (x.run p events) := by
  obtain ⟨received, written, haccounted⟩ := h.connection.accounted
  have hmem : t.invocation ∈ x.connection.running := by
    rw [h.connection.running]
    exact List.mem_map_of_mem ht
  have hfind : x.connection.invocation? t.invocation.ticket = some t.invocation :=
    find?_key_of_mem haccounted.tickets hmem
  cases hbound : t.invocation.isBound with
  | true =>
    have hadmitted := hadmits [(now, .handled t.invocation.ticket)] rfl
    have hhandled : p.Progresses g _ (x.step p now (.handled t.invocation.ticket)) :=
      h.handled hagreed t.invocation.ticket hadmitted.1.response
    obtain ⟨g', hless, hadvances⟩ := hhandled.exists_moved fun hidle =>
      Bool.false_ne_true ((hidle t.invocation hfind).symm.trans hbound)
    exact ⟨[(now, .handled t.invocation.ticket)], g', rfl, hless, hadvances.run_one⟩
  | false =>
    have hadmitted := hadmits [(now, .unbound t.invocation.ticket)] rfl
    have hunbound : p.Progresses g _ (x.step p now (.unbound t.invocation.ticket)) :=
      h.unbound hagreed t.invocation.ticket hadmitted.1.response
    obtain ⟨g', hless, hadvances⟩ := hunbound.exists_moved fun hidle =>
      Bool.false_ne_true (hbound.symm.trans (hidle t.invocation hfind))
    exact ⟨[(now, .unbound t.invocation.ticket)], g', rfl, hless, hadvances.run_one⟩

/-- While a call waits, something can happen in which one moves on. -/
theorem exists_moved (h : p.Holds x g) (hagreed : p.Agreed) (now : Moment) (hwaits : g ≠ .empty)
    (hadmits : ∀ events, asked events = [] → p.AdmitsRun x events) :
    ∃ events g' settled, asked events = [] ∧ g'.owed < g.owed ∧
      p.Advances g g' [] settled (x.run p events) := by
  -- the first place at which there is a call
  obtain ⟨unqueued, outbound, upstream, running, downstream⟩ := g
  rcases unqueued with _ | ⟨call, rest⟩
  case cons =>
    have hqueue : p.Progresses _ _ (x.step p now (.queue call.slot.generation)) :=
      h.queue call.slot.generation
    obtain ⟨g', hless, hadvances⟩ := hqueue.exists_moved fun hnone =>
      List.find?_eq_none.mp hnone call List.mem_cons_self (beq_self_eq_true _)
    exact ⟨[(now, .queue call.slot.generation)], g', [], rfl, hless, hadvances.run_one⟩
  rcases outbound with _ | ⟨call, rest⟩
  case cons =>
    have hwrite : p.Progresses _ _ (x.step p now .write) := h.write hagreed
    obtain ⟨g', hless, hadvances⟩ := hwrite.exists_moved (List.cons_ne_nil call rest)
    exact ⟨[(now, .write)], g', [], rfl, hless, hadvances.run_one⟩
  rcases upstream with _ | ⟨call, rest⟩
  case cons =>
    obtain ⟨events, g', hasked, hless, hadvances⟩ :=
      h.exists_moved_upstream hagreed now (List.cons_ne_nil call rest) hadmits
    exact ⟨events, g', [], hasked, hless, hadvances⟩
  rcases running with _ | ⟨t, rest⟩
  case cons =>
    obtain ⟨events, g', hasked, hless, hadvances⟩ :=
      h.exists_moved_running hagreed now List.mem_cons_self hadmits
    exact ⟨events, g', [], hasked, hless, hadvances⟩
  rcases downstream with _ | ⟨a, rest⟩
  case cons =>
    obtain ⟨later, settled, hall, hadvances⟩ := h.deliver hagreed x.downstream.length
    obtain rfl := hall List.drop_length
    refine ⟨[(now, .deliver x.downstream.length)], _, settled, rfl, ?_, hadvances.run_one⟩
    simp [Stages.owed]
  exact absurd rfl hwaits

/-- Whatever has happened, an exchange can come to rest without a new call. -/
theorem exists_atRest (h : p.Holds x g) (hagreed : p.Agreed) (now : Moment)
    (hadmits : ∀ events, asked events = [] → p.AdmitsRun x events) :
    ∃ events, asked events = [] ∧ (x.run p events).1.AtRest := by
  induction howed : g.owed using Nat.strong_induction_on generalizing x g with
  | _ owed ih =>
    by_cases hwaits : g = .empty
    · subst hwaits
      exact ⟨[], rfl, h.atRest⟩
    · obtain ⟨events, g', settled, hasked, hless, hadvances⟩ :=
        h.exists_moved hagreed now hwaits hadmits
      obtain ⟨more, hmore, hrest⟩ := ih g'.owed (howed ▸ hless) hadvances.holds
        (fun later hlater => (hadmits (events ++ later)
          (by rw [asked_append, hasked, hlater]; rfl)).behind) rfl
      refine ⟨events ++ more, by rw [asked_append, hasked, hmore]; rfl, ?_⟩
      rw [Exchange.run_append]
      exact hrest

end Holds

end Partners

end RemoteCall
