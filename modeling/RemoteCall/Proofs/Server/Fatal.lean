import RemoteCall.Proofs.Server.Sending
import RemoteCall.Proofs.Server.Steps

/-!
# Fatal failures

A failure that ends a connection is the answer to every request in flight, smaller ids first, and
nothing is written behind these answers. As long as they keep to the limit on frames all of them are
written, and no request is left in flight. The first that does not stops the others.
-/

namespace RemoteCall

variable {m : Type → Type}

namespace Connection

/-- The response that a fatal failure gives to a request in flight. -/
def fatalResponse (now : Moment) (cause : CallError) (id : UInt64) : Response :=
  .failure id now.timestamp (fatalStatus cause) cause.message

/-- The response to a request in flight, written in the frame of its body. -/
def fatalAnswer (now : Moment) (cause : CallError) (id : UInt64) : ConnectionEffect m :=
  .write (fatalResponse now cause id)
    (Frame.wrap (Encoder.bareResponse (fatalResponse now cause id)))

/-- A connection that has failed with no request left in flight. -/
structure Drained (c : Connection) (cause : CallError) : Prop where
  inFlight : c.inFlight = []
  /-- The activity counts no request either. -/
  counted : c.activity.inFlight = 0
  running : c.running = []
  ending : c.ending = some (.failed cause)

variable {d : Dispatcher m} {now : Moment} {c : Connection} {status : Status} {reason : String}
  {ids : List UInt64} {cause : CallError}

/-- The responses to abandoned requests are those to the first so many of them. -/
theorem responses_abandon (d : Dispatcher m) (now : Moment) (status : Status) (reason : String)
    (ids : List UInt64) (c : Connection) :
    ∃ count, responses (abandon d now status reason ids c).2 = (ids.take count).map fun id =>
      (d.reply now.timestamp (.failure id now.timestamp status reason)).1 := by
  induction ids generalizing c with
  | nil => exact ⟨0, rfl⟩
  | cons id rest ih =>
    rw [abandon, write]
    dsimp only
    cases Frame.encode d.maxFrameSize
        (d.reply now.timestamp (.failure id now.timestamp status reason)).2 with
    | error e => exact ⟨0, rfl⟩
    | ok bytes =>
      obtain ⟨count, hcount⟩ := ih
        { c.release id with activity := (c.release id).activity.touch now }
      exact ⟨count + 1, congrArg (_ :: ·) hcount⟩

/-- Abandoned requests keep their tickets. -/
theorem lastTicket_abandon (d : Dispatcher m) (now : Moment) (status : Status) (reason : String)
    (ids : List UInt64) (c : Connection) :
    (abandon d now status reason ids c).1.lastTicket = c.lastTicket := by
  induction ids generalizing c with
  | nil => rfl
  | cons id rest ih =>
    rw [abandon, write]
    dsimp only
    cases Frame.encode d.maxFrameSize
        (d.reply now.timestamp (.failure id now.timestamp status reason)).2 with
    | error e => rfl
    | ok bytes => exact ih _

/-- The responses of a failure are those to the first so many ids in flight. -/
theorem responses_fail (d : Dispatcher m) (now : Moment) (c : Connection) (cause : CallError) :
    ∃ count, responses (c.fail d now cause).2 =
      ((c.inFlight.mergeSort (· ≤ ·)).take count).map fun id =>
        (d.reply now.timestamp (fatalResponse now cause id)).1 := by
  obtain ⟨count, hcount⟩ := responses_abandon d now (fatalStatus cause) cause.message
    (c.inFlight.mergeSort (· ≤ ·)) c
  refine ⟨count, ?_⟩
  rw [fail]
  dsimp only [finish]
  rw [responses_append, hcount]
  exact List.append_nil _

/-- If all answers can be sent, all requests in flight are answered in turn. -/
theorem abandon_of_fits (hids : c.inFlight.Perm ids)
    (hcounted : c.activity.inFlight = c.inFlight.length)
    (hfits : ∀ id ∈ ids, d.Fits (.failure id now.timestamp status reason)) :
    ∃ after, after.inFlight = [] ∧ after.activity.inFlight = 0 ∧
      abandon d now status reason ids c = (after, ids.map fun id =>
        .write (.failure id now.timestamp status reason)
          (Frame.wrap (Encoder.bareResponse (.failure id now.timestamp status reason)))) := by
  induction ids generalizing c with
  | nil =>
    have hnone : c.inFlight = [] := hids.eq_nil
    exact ⟨c, hnone, by rw [hcounted, hnone, List.length_nil], rfl⟩
  | cons id rest ih =>
    have hsends := (hfits id List.mem_cons_self).sends rfl
    have hrest : (c.inFlight.erase id).Perm rest := by
      have herase := hids.erase id
      rwa [List.erase_cons_head] at herase
    obtain ⟨after, hinFlight, hactivity, hafter⟩ := ih
      (c := { c.release id with activity := (c.release id).activity.touch now })
      hrest rfl fun other hother => hfits other (List.mem_cons_of_mem id hother)
    refine ⟨after, hinFlight, hactivity, ?_⟩
    rw [abandon, hsends.write_eq]
    dsimp only
    rw [hafter]
    rfl

/-- Sorted ids without repeats ascend. -/
theorem ascending_mergeSort (h : ids.Nodup) : (ids.mergeSort (· ≤ ·)).Pairwise (· < ·) := by
  have hle : (ids.mergeSort (· ≤ ·)).Pairwise (fun a b => decide (a ≤ b) = true) := by
    refine List.pairwise_mergeSort (fun a b c hab hbc => ?_) (fun a b => ?_) ids
    · have hab := of_decide_eq_true hab
      have hbc := of_decide_eq_true hbc
      exact decide_eq_true (UInt64.le_trans hab hbc)
    · have htotal := UInt64.le_total a b
      simpa using htotal
  have hne : (ids.mergeSort (· ≤ ·)).Nodup := (List.mergeSort_perm ids _).nodup_iff.mpr h
  refine (hle.and hne).imp fun {a b} hab => ?_
  exact UInt64.lt_of_le_of_ne (of_decide_eq_true hab.1) hab.2

/-- A failure answers all that is in flight, smaller ids first, and ends the connection. -/
theorem fail_of_fits (hdistinct : c.inFlight.Nodup)
    (hcounted : c.activity.inFlight = c.inFlight.length)
    (hfits : ∀ id ∈ c.inFlight, d.Fits (fatalResponse now cause id)) :
    ∃ ids : List UInt64, ids.Pairwise (· < ·) ∧ ids.Perm c.inFlight ∧
      Drained (c.fail d now cause).1 cause ∧
      (c.fail d now cause).2 = ids.map (fatalAnswer now cause) ++ [.ended (.failed cause)] := by
  have hperm := List.mergeSort_perm c.inFlight (· ≤ ·)
  obtain ⟨after, hinFlight, hactivity, hafter⟩ := abandon_of_fits hperm.symm hcounted
    fun id hid => hfits id (hperm.mem_iff.mp hid)
  refine ⟨_, ascending_mergeSort hdistinct, hperm, ?_, ?_⟩
  · rw [fail, hafter]
    exact ⟨hinFlight, hactivity, rfl, rfl⟩
  · rw [fail, hafter]
    rfl

/-- A run in two stretches. -/
theorem run_append (d : Dispatcher m) (c : Connection)
    (before after : List (Moment × ConnectionEvent)) :
    c.run d (before ++ after) = (((c.run d before).1.run d after).1,
      (c.run d before).2 ++ ((c.run d before).1.run d after).2) := by
  induction before generalizing c with
  | nil => rfl
  | cons event rest ih =>
    obtain ⟨now, e⟩ := event
    rw [List.cons_append, run, run]
    dsimp only
    rw [ih, List.append_assoc]

end Connection

end RemoteCall
