import RemoteCall.Proofs.Server.Fatal

/-!
# No request is answered twice

Every response of a connection is kept with the ticket of the request that it is for. As long as the
connection is open no running invocation has a response yet, so whatever answers it is its first
response: its handler, the lack of one, or the failure that ends the connection, and after the end
there is none. This holds over whole runs, through the switch from serving requests to failing them.
-/

namespace RemoteCall

variable {m : Type → Type}

/-- The first so many images, each with another image of the same element. -/
theorem zip_map_take {α β γ : Type} (f : α → β) (g : α → γ) (xs : List α) (count : Nat) :
    (xs.map f).zip ((xs.take count).map g) = (xs.take count).map fun x => (f x, g x) := by
  induction xs generalizing count with
  | nil => simp
  | cons x xs ih =>
    cases count with
    | zero => rfl
    | succ count =>
      rw [List.take_succ_cons, List.map_cons, List.map_cons, List.zip_cons_cons, ih, List.map_cons]

namespace Connection

/-- What a step writes, each response with the ticket of the request that it is for. -/
def answers (d : Dispatcher m) (now : Moment) (c : Connection) (e : ConnectionEvent) :
    List (Option Nat × Response) :=
  (c.addressees d e).zip (responses (c.step d now e).2)

/-- What a run writes, each response with the ticket of the request that it is for. -/
def answered (d : Dispatcher m) (c : Connection) :
    List (Moment × ConnectionEvent) → List (Option Nat × Response)
  | [] => []
  | (now, e) :: rest => c.answers d now e ++ (c.step d now e).1.answered d rest

/-- The requests that a run admits, each with its ticket. -/
def admitted (d : Dispatcher m) (c : Connection) :
    List (Moment × ConnectionEvent) → List (Nat × Request)
  | [] => []
  | (now, e) :: rest =>
    (if c.isEnded then [] else c.admittedBy d e) ++ (c.step d now e).1.admitted d rest

/-- The requests that a run refuses. -/
def refused (d : Dispatcher m) (c : Connection) : List (Moment × ConnectionEvent) → List Request
  | [] => []
  | (now, e) :: rest =>
    (if c.isEnded then [] else c.refusedBy d e) ++ (c.step d now e).1.refused d rest

/-- Responses with the tickets of their requests, of which none is answered twice. -/
structure AnsweredOnce (admitted : List (Nat × Request)) (refused : List Request)
    (answered : List (Option Nat × Response)) (written : List Response) : Prop where
  /-- Every admitted request has a ticket of its own. -/
  tickets : (admitted.map (·.1)).Nodup
  /-- No ticket has two responses. -/
  once : (answered.filterMap (·.1)).Nodup
  /-- The response to a ticket has the id of its request. -/
  owned : ∀ ticket r, (some ticket, r) ∈ answered → ∃ q, (ticket, q) ∈ admitted ∧ q.id = r.id
  /-- The responses without a ticket are for refused requests, one for each at most. -/
  refusals : ((answered.filter (·.1.isNone)).map (·.2.id)).Sublist (refused.map (·.id))
  /-- There are no other responses. -/
  all : answered.map (·.2) = written

/-- Of the admitted requests some are running, and those are not answered yet. -/
structure Logged (c : Connection) (admitted : List (Nat × Request)) (refused : List Request)
    (answered : List (Option Nat × Response)) (written : List Response) : Prop where
  tickets : (admitted.map (·.1)).Nodup
  /-- Every ticket has been given out. -/
  issued : ∀ a ∈ admitted, a.1 ≤ c.lastTicket
  /-- The running invocations are of admitted requests. -/
  running : ∀ i ∈ c.running, (i.ticket, i.request) ∈ admitted
  /-- A ticket has one response, or its invocation is running, or neither. -/
  once : (answered.filterMap (·.1) ++ c.running.map (·.ticket)).Nodup
  owned : ∀ ticket r, (some ticket, r) ∈ answered → ∃ q, (ticket, q) ∈ admitted ∧ q.id = r.id
  refusals : ((answered.filter (·.1.isNone)).map (·.2.id)).Sublist (refused.map (·.id))
  all : answered.map (·.2) = written

variable {d : Dispatcher m} {now : Moment} {c c' : Connection} {e : ConnectionEvent}
  {admitted : List (Nat × Request)} {refused fresh : List Request}
  {answered : List (Option Nat × Response)} {written : List Response}

/-- The end of a connection is no response. -/
theorem responses_ended (how : ConnectionEnd) : responses (m := m) [.ended how] = [] := rfl

namespace Logged

/-- No ticket that has a response has another. -/
theorem answeredOnce (h : Logged c admitted refused answered written) :
    AnsweredOnce admitted refused answered written where
  tickets := h.tickets
  once := (List.nodup_append.mp h.once).1
  owned := h.owned
  refusals := h.refusals
  all := h.all

/-- Nothing is in the log of a connection that has just been accepted. -/
theorem start (maxFrameSize : Nat) (opened : Moment) :
    Logged (.start maxFrameSize opened) [] [] [] [] where
  tickets := .nil
  issued := fun _ ha => absurd ha List.not_mem_nil
  running := fun _ hi => absurd hi List.not_mem_nil
  once := .nil
  owned := fun _ _ hr => absurd hr List.not_mem_nil
  refusals := .refl _
  all := rfl

/-- More responses keep the log, if those with tickets are for invocations that have been running
and run no more, and the others are for refused requests. -/
theorem answer (h : Logged c admitted refused answered written)
    (more : List (Option Nat × Response)) (hlast : c'.lastTicket = c.lastTicket)
    (hrunning : ∀ i ∈ c'.running, i ∈ c.running)
    (honce : ∃ unanswered : List Nat, (more.filterMap (·.1) ++ c'.running.map (·.ticket) ++
      unanswered).Perm (c.running.map (·.ticket)))
    (howned : ∀ ticket r, (some ticket, r) ∈ more →
      ∃ i ∈ c.running, i.ticket = ticket ∧ i.request.id = r.id)
    (hrefusals : ((more.filter (·.1.isNone)).map (·.2.id)).Sublist (fresh.map (·.id))) :
    Logged c' admitted (refused ++ fresh) (answered ++ more) (written ++ more.map (·.2)) where
  tickets := h.tickets
  issued := hlast ▸ h.issued
  running := fun i hi => h.running i (hrunning i hi)
  once := by
    obtain ⟨unanswered, hperm⟩ := honce
    have hall : (answered.filterMap (·.1) ++ (more.filterMap (·.1) ++ c'.running.map (·.ticket) ++
        unanswered)).Nodup := (hperm.append_left _).nodup_iff.mpr h.once
    rw [← List.append_assoc] at hall
    rw [List.filterMap_append, List.append_assoc]
    exact (List.nodup_append.mp hall).1
  owned := by
    intro ticket r hr
    rcases List.mem_append.mp hr with hr | hr
    · exact h.owned ticket r hr
    · obtain ⟨i, hi, rfl, hid⟩ := howned ticket r hr
      exact ⟨i.request, h.running i hi, hid⟩
  refusals := by
    rw [List.filter_append, List.map_append, List.map_append]
    exact h.refusals.append hrefusals
  all := by rw [List.map_append, h.all]

/-- A step that writes nothing, and leaves all invocations or ends the connection, keeps the log. -/
theorem silent (h : Logged c admitted refused answered written)
    {effects : List (ConnectionEffect m)} (hsilent : responses effects = [])
    (hlast : c'.lastTicket = c.lastTicket) (hrunning : c'.running = c.running ∨ c'.running = [])
    (addressees : List (Option Nat)) (fresh : List Request) :
    Logged c' admitted (refused ++ fresh) (answered ++ addressees.zip (responses effects))
      (written ++ responses effects) := by
  have hkept : ∀ i ∈ c'.running, i ∈ c.running := by
    intro i hi
    rcases hrunning with heq | heq
    · rwa [heq] at hi
    · rw [heq] at hi
      cases hi
  have honce : ∃ unanswered : List Nat,
      (([] : List Nat) ++ c'.running.map (·.ticket) ++ unanswered).Perm
        (c.running.map (·.ticket)) := by
    rcases hrunning with heq | heq
    · exact ⟨[], by simp [heq]⟩
    · exact ⟨c.running.map (·.ticket), by simp [heq]⟩
  rw [hsilent, List.zip_nil_right]
  exact h.answer [] hlast hkept honce (fun _ _ hr => absurd hr List.not_mem_nil)
    (List.nil_sublist _)

/-- One response keeps the log, whether it is written or ends the connection, if it is for an
invocation that has been running and runs no more, or for a refused request. -/
theorem respond (h : Logged c admitted refused answered written) (rest : Connection)
    (addressee : Option Nat) {response : Response} (hlast : rest.lastTicket = c.lastTicket)
    (hrunning : ∀ i ∈ rest.running, i ∈ c.running)
    (honce : (addressee.toList ++ rest.running.map (·.ticket)).Perm (c.running.map (·.ticket)))
    (howned : ∀ ticket ∈ addressee, ∃ i ∈ c.running, i.ticket = ticket ∧
      i.request.id = response.id)
    (hrefusals : addressee = none → fresh.map (·.id) = [response.id]) :
    Logged (rest.respond d now response).1 admitted (refused ++ fresh)
      (answered ++ [addressee].zip (responses (rest.respond d now response).2))
      (written ++ responses (rest.respond d now response).2) := by
  have hsent : (d.reply now.timestamp response).1.id = response.id := d.reply_id _ _
  rcases respond_cases d now rest response with ⟨bytes, hrespond⟩ | ⟨cause, hrespond⟩
  · rw [hrespond]
    refine h.answer [(addressee, (d.reply now.timestamp response).1)] hlast hrunning ⟨[], ?_⟩ ?_ ?_
    · cases addressee with
      | none => simpa using honce
      | some ticket => simpa using honce
    · intro ticket sent hmem
      cases List.mem_singleton.mp hmem
      rw [hsent]
      exact howned ticket rfl
    · cases addressee with
      | none => simp [hrefusals rfl, hsent]
      | some ticket => exact List.nil_sublist _
  · rw [hrespond]
    refine h.silent (responses_ended (.failed cause)) ?_ ?_ _ _
    · exact hlast
    · exact .inr rfl

/-- A refusal keeps the log. -/
theorem refuse (h : Logged c admitted refused answered written) (reader : FrameReader)
    {r : Request} {refusal : Response} (hid : refusal.id = r.id) :
    Logged (({ c with reader } : Connection).respond d now refusal).1 admitted (refused ++ [r])
      (answered ++ [none].zip
        (responses (({ c with reader } : Connection).respond d now refusal).2))
      (written ++ responses (({ c with reader } : Connection).respond d now refusal).2) := by
  refine h.respond { c with reader } none rfl (fun _ hi => hi) ?_ ?_ ?_
  · exact .refl _
  · exact fun ticket hticket => absurd hticket (Option.not_mem_none ticket)
  · intro _
    rw [hid, List.map_singleton]

/-- An admitted request joins the running ones under the next ticket. -/
theorem join (h : Logged c admitted refused answered written) (reader : FrameReader) (r : Request)
    (isBound : Bool) :
    Logged { ({ c with reader } : Connection).withInFlight (c.inFlight ++ [r.id]) with
      lastTicket := c.lastTicket + 1
      running := c.running ++ [⟨c.lastTicket + 1, r, isBound⟩] }
      (admitted ++ [(c.lastTicket + 1, r)]) refused answered written where
  tickets := by
    have hnew : c.lastTicket + 1 ∉ admitted.map (·.1) := by
      intro hmem
      obtain ⟨a, ha, hticket⟩ := List.mem_map.mp hmem
      have hle := h.issued a ha
      omega
    rw [List.map_append, List.nodup_append]
    refine ⟨h.tickets, List.pairwise_singleton _ _, fun a ha b hb hab => hnew ?_⟩
    rw [List.map_singleton, List.mem_singleton] at hb
    rwa [hab, hb] at ha
  issued := by
    intro a ha
    change a.1 ≤ c.lastTicket + 1
    rcases List.mem_append.mp ha with ha | ha
    · have hle := h.issued a ha
      omega
    · rw [List.mem_singleton.mp ha]
  running := by
    intro i hi
    rcases List.mem_append.mp hi with hi | hi
    · exact List.mem_append_left _ (h.running i hi)
    · rw [List.mem_singleton.mp hi]
      exact List.mem_append_right _ List.mem_cons_self
  once := by
    have hbefore : ∀ ticket ∈ answered.filterMap (·.1) ++ c.running.map (·.ticket),
        ticket ≤ c.lastTicket := by
      intro ticket hticket
      rcases List.mem_append.mp hticket with hticket | hticket
      · obtain ⟨⟨_, response⟩, hmem, rfl⟩ := List.mem_filterMap.mp hticket
        obtain ⟨q, hq, -⟩ := h.owned ticket response hmem
        exact h.issued _ hq
      · obtain ⟨i, hi, rfl⟩ := List.mem_map.mp hticket
        exact h.issued _ (h.running i hi)
    rw [List.map_append, ← List.append_assoc, List.nodup_append]
    refine ⟨h.once, List.pairwise_singleton _ _, fun a ha b hb hab => ?_⟩
    have hle := hbefore a ha
    rw [List.map_singleton, List.mem_singleton] at hb
    dsimp only at hb
    omega
  owned := by
    intro ticket response hmem
    obtain ⟨q, hq, hid⟩ := h.owned ticket response hmem
    exact ⟨q, List.mem_append_left _ hq, hid⟩
  refusals := h.refusals
  all := h.all

/-- An invocation that is answered runs no more. -/
theorem complete (h : Logged c admitted refused answered written) {ticket : Nat} {i : Invocation}
    (hi : c.invocation? ticket = some i) {r : Response} (hid : r.id = i.request.id) :
    Logged (c.complete d now i r).1 admitted (refused ++ [])
      (answered ++ [some ticket].zip (responses (c.complete d now i r).2))
      (written ++ responses (c.complete d now i r).2) := by
  have hticket : i.ticket = ticket := key_of_find? hi
  have hmem : i ∈ c.running := List.mem_of_find?_eq_some hi
  have htickets : (c.running.map (·.ticket)).Nodup := (List.nodup_append.mp h.once).2.1
  have hperm : c.running.Perm (i :: c.running.filter (·.ticket != i.ticket)) := by
    rw [hticket]
    exact perm_cons_filter_key htickets hi
  refine h.respond _ (some ticket) rfl ?_ ?_ ?_ ?_
  · exact fun j hj => List.mem_of_mem_filter hj
  · rw [← hticket]
    exact (hperm.map (·.ticket)).symm
  · intro t ht
    cases ht
    exact ⟨i, hmem, hticket, hid.symm⟩
  · intro hnone
    cases hnone

/-- A failure answers invocations that have been running, each once, and none runs behind it. -/
theorem fail (h : Logged c admitted refused answered written) (reader : FrameReader)
    (cause : CallError) (hids : c.inFlight = c.running.map (·.request.id)) :
    Logged (({ c with reader } : Connection).fail d now cause).1 admitted (refused ++ [])
      (answered ++ (c.abandoned.map fun i => some i.ticket).zip
        (responses (({ c with reader } : Connection).fail d now cause).2))
      (written ++ responses (({ c with reader } : Connection).fail d now cause).2) := by
  have hperm : c.abandoned.Perm c.running := List.mergeSort_perm _ _
  -- the ids in their order are those of the invocations in their order
  have hsorted : c.inFlight.mergeSort (· ≤ ·) = c.abandoned.map (·.request.id) := by
    rw [hids, abandoned]
    refine (List.map_mergeSort ?_).symm
    intro _ _ _ _
    rfl
  obtain ⟨count, hcount⟩ := responses_fail d now { c with reader } cause
  rw [hsorted, ← List.map_take, List.map_map] at hcount
  obtain ⟨more, hmore⟩ : ∃ more, more = (c.abandoned.take count).map fun i =>
    (some i.ticket, (d.reply now.timestamp (fatalResponse now cause i.request.id)).1) := ⟨_, rfl⟩
  have hwritten : responses (({ c with reader } : Connection).fail d now cause).2 =
      more.map (·.2) := by
    rw [hcount, hmore, List.map_map]
    rfl
  have hzip : (c.abandoned.map fun i => some i.ticket).zip (more.map (·.2)) = more := by
    rw [hmore, List.map_map]
    exact zip_map_take _ _ _ _
  have htickets : more.filterMap (·.1) = (c.abandoned.take count).map (·.ticket) := by
    rw [hmore, List.filterMap_map]
    exact congrFun List.filterMap_eq_map _
  rw [hwritten, hzip]
  refine h.answer more ?_ ?_ ⟨(c.abandoned.drop count).map (·.ticket), ?_⟩ ?_ ?_
  · exact lastTicket_abandon d now _ _ _ { c with reader }
  · exact fun i hi => absurd hi List.not_mem_nil
  · change (more.filterMap (·.1) ++ ([] : List Nat) ++ _).Perm _
    rw [htickets, List.append_nil, ← List.map_append, List.take_append_drop]
    exact hperm.map (·.ticket)
  · intro ticket r hmem
    rw [hmore] at hmem
    obtain ⟨i, hi, heq⟩ := List.mem_map.mp hmem
    cases heq
    have hid := d.reply_id now.timestamp (fatalResponse now cause i.request.id)
    exact ⟨i, hperm.mem_iff.mp (List.mem_of_mem_take hi), rfl, hid.symm⟩
  · have hnone : more.filter (·.1.isNone) = [] := by
      refine List.filter_eq_nil_iff.mpr fun entry hentry => ?_
      rw [hmore] at hentry
      obtain ⟨i, -, rfl⟩ := List.mem_map.mp hentry
      simp
    rw [hnone]
    exact List.nil_sublist _

/-- A step of an open connection keeps the log. -/
theorem step (h : Logged c admitted refused answered written)
    (hids : c.inFlight = c.running.map (·.request.id)) (hended : c.isEnded = false) :
    Logged (c.step d now e).1 (admitted ++ c.admittedBy d e) (refused ++ c.refusedBy d e)
      (answered ++ c.answers d now e) (written ++ responses (c.step d now e).2) := by
  have hstep : Stepped d now c _ _ _ (c.step d now e) := step_cases hended
  unfold answers
  generalize c.admittedBy d e = entered, c.refusedBy d e = turned, c.addressees d e = addressees,
    c.step d now e = out at hstep ⊢
  cases hstep with
  | idle running lastTicket =>
    rw [List.append_nil]
    exact h.silent rfl lastTicket (.inl running) _ _
  | refused reader id =>
    rw [List.append_nil]
    exact h.refuse reader id
  | admitted reader r silent =>
    have hjoined := h.join reader r (d.method? r).isSome
    exact hjoined.silent silent rfl (.inl rfl) _ _
  | completed found id =>
    rw [List.append_nil]
    exact h.complete found id
  | closed reader =>
    rw [List.append_nil]
    refine h.silent (responses_ended .clean) ?_ ?_ _ _
    · rfl
    · exact .inr rfl
  | failed reader cause =>
    rw [List.append_nil]
    exact h.fail reader cause hids

/-- What has happened to an ended connection stays so. -/
theorem of_ended (h : Logged c admitted refused answered written) (hended : c.isEnded = true)
    (events : List (Moment × ConnectionEvent)) :
    Logged (c.run d events).1 (admitted ++ c.admitted d events) (refused ++ c.refused d events)
      (answered ++ c.answered d events) (written ++ responses (c.run d events).2) := by
  have hnothing : c.admitted d events = [] ∧ c.refused d events = [] ∧
      c.answered d events = [] := by
    induction events with
    | nil => exact ⟨rfl, rfl, rfl⟩
    | cons event rest ih =>
      obtain ⟨now, e⟩ := event
      rw [Connection.admitted, Connection.refused, Connection.answered, answers,
        step_of_ended hended, hended]
      obtain ⟨hadmitted, hrefused, hanswered⟩ := ih
      simp [hadmitted, hrefused, hanswered, responses]
  obtain ⟨hadmitted, hrefused, hanswered⟩ := hnothing
  rw [run_of_ended hended, hadmitted, hrefused, hanswered]
  simpa [responses] using h

/-- A run keeps the log, through the end of the connection and behind it. -/
theorem after_run (h : Logged c admitted refused answered written)
    (hbooks : c.isEnded = false → ∃ received written, Accounted c received written)
    (events : List (Moment × ConnectionEvent)) :
    Logged (c.run d events).1 (admitted ++ c.admitted d events) (refused ++ c.refused d events)
      (answered ++ c.answered d events) (written ++ responses (c.run d events).2) := by
  induction events generalizing c admitted refused answered written with
  | nil => simpa [Connection.admitted, Connection.refused, Connection.answered, run, responses]
      using h
  | cons event rest ih =>
    cases hended : c.isEnded with
    | true => exact h.of_ended hended _
    | false =>
      obtain ⟨now, e⟩ := event
      obtain ⟨received, sent, haccounted⟩ := hbooks hended
      have hstep : Logged (c.step d now e).1 _ _ _ _ := h.step haccounted.ids hended
      have hnext := ih hstep fun hopen => ⟨_, _, haccounted.step hended (ending_of_open hopen)⟩
      rw [Connection.admitted, Connection.refused, Connection.answered, run, hended,
        if_neg Bool.false_ne_true, if_neg Bool.false_ne_true, responses_append]
      simpa only [List.append_assoc] using hnext

end Logged

/-- Over a whole run, no request is answered twice. -/
theorem run_answeredOnce (d : Dispatcher m) (maxFrameSize : Nat) (opened : Moment)
    (events : List (Moment × ConnectionEvent)) :
    AnsweredOnce ((start maxFrameSize opened).admitted d events)
      ((start maxFrameSize opened).refused d events)
      ((start maxFrameSize opened).answered d events)
      (responses ((start maxFrameSize opened).run d events).2) :=
  ((Logged.start maxFrameSize opened).after_run
    (fun _ => ⟨[], [], .start maxFrameSize opened⟩) events).answeredOnce

/-- **A fatal failure answers all that is in flight.** If after any run a frame or a request is bad
or reading fails, then each request in flight is answered with that failure, smaller ids first, as
long as these answers keep to the limit on frames. Nothing else is written any more, whatever comes
later, and nothing is left in flight. Over the whole run no request is answered twice. -/
theorem run_fatal_answered (d : Dispatcher m) (maxFrameSize : Nat) (opened now : Moment)
    (before later : List (Moment × ConnectionEvent)) (e : ConnectionEvent) (cause : CallError)
    (hopen : ((start maxFrameSize opened).run d before).1.ending = none)
    (hcause : ((start maxFrameSize opened).run d before).1.failure? d e = some cause)
    (hfits : ∀ id ∈ ((start maxFrameSize opened).run d before).1.inFlight,
      d.Fits (fatalResponse now cause id)) :
    (∃ ids : List UInt64, ids.Pairwise (· < ·) ∧
      ids.Perm ((start maxFrameSize opened).run d before).1.inFlight ∧
      ((start maxFrameSize opened).run d (before ++ (now, e) :: later)).2 =
        ((start maxFrameSize opened).run d before).2 ++
          (ids.map (fatalAnswer now cause) ++ [.ended (.failed cause)])) ∧
    Drained ((start maxFrameSize opened).run d (before ++ (now, e) :: later)).1 cause ∧
    AnsweredOnce ((start maxFrameSize opened).admitted d (before ++ (now, e) :: later))
      ((start maxFrameSize opened).refused d (before ++ (now, e) :: later))
      ((start maxFrameSize opened).answered d (before ++ (now, e) :: later))
      (responses ((start maxFrameSize opened).run d (before ++ (now, e) :: later)).2) := by
  have hbooks := (Accounted.start maxFrameSize opened).after_run hopen
  have honce := run_answeredOnce d maxFrameSize opened (before ++ (now, e) :: later)
  rw [run_append] at honce ⊢
  generalize ((start maxFrameSize opened).run d before).1 = c at *
  have hended : c.isEnded = false := by rw [isEnded, hopen]; rfl
  obtain ⟨reader, hstep⟩ := step_of_failure now hended hcause
  obtain ⟨ids, hascending, hperm, hdrained, heffects⟩ :=
    fail_of_fits (c := { c with reader }) hbooks.distinct hbooks.counted hfits
  have hover : (({ c with reader } : Connection).fail d now cause).1.isEnded = true := by
    rw [isEnded, hdrained.ending]
    rfl
  have hrun : c.run d ((now, e) :: later) =
      ({ c with reader } : Connection).fail d now cause := by
    rw [run, hstep]
    dsimp only
    rw [run_of_ended hover, List.append_nil]
  rw [hrun] at honce ⊢
  refine ⟨⟨ids, hascending, hperm, ?_⟩, hdrained, honce⟩
  rw [heffects]

namespace Desynchronised

/-- A server without services. -/
def dispatcher : Dispatcher Id := ⟨.empty, .standard, 1000⟩

/-- The moment at which everything happens. -/
def moment : Moment := ⟨0, 0⟩

/-- The frame of a request with a small id. -/
def frame (id : UInt8) : List UInt8 :=
  Frame.wrap [27, id, 0, 5, 83, 116, 111, 114, 101, 4, 112, 105, 110, 103, 0, 0, 0, 0]

/-- Three requests come, the first is answered, the last comes twice, and bytes follow that begin no
frame. -/
def before : List (Moment × ConnectionEvent) :=
  [.receive (frame 5 ++ frame 9 ++ frame 7 ++ frame 7 ++ [1, 2, 3, 4, 5, 6]), .read false,
    .read false, .read false, .unbound 1, .read false].map (moment, ·)

/-- The responses of the two requests that are still in flight come too late. -/
def later : List (Moment × ConnectionEvent) := [.unbound 2, .unbound 3].map (moment, ·)

/-- The bytes begin no frame. -/
def cause : CallError := .badMagic 258

/-- Of the requests in flight the later one has the smaller id. -/
theorem inFlight_eq : ((start 1000 moment).run dispatcher before).1.inFlight = [9, 7] := by
  decide +kernel

/-- The answers are short enough. -/
theorem fits (id : UInt64) (h : id ∈ ([9, 7] : List UInt64)) :
    dispatcher.Fits (fatalResponse moment cause id) := by
  refine (Dispatcher.fits_iff_of_null rfl).mpr ?_
  rcases List.mem_cons.mp h with rfl | h
  · decide +kernel
  · rw [List.mem_singleton.mp h]
    decide +kernel

end Desynchronised

/-- A stream that is out of step: one request has been answered, one has been refused, and the two
in flight are answered by ascending ids with an error of the protocol. -/
theorem run_fatal_answered_desynchronised :
    ((start 1000 Desynchronised.moment).run Desynchronised.dispatcher
      Desynchronised.before).1.ending = none ∧
    ((start 1000 Desynchronised.moment).run Desynchronised.dispatcher
      Desynchronised.before).1.failure? Desynchronised.dispatcher (.read false) =
        some Desynchronised.cause ∧
    (responses ((start 1000 Desynchronised.moment).run Desynchronised.dispatcher
      (Desynchronised.before ++ (Desynchronised.moment, .read false) ::
        Desynchronised.later)).2).map (fun r => (r.id, r.status)) =
      [(5, .lookupError), (7, .parameterError), (7, .protocolError), (9, .protocolError)] := by
  have hopen : ((start 1000 Desynchronised.moment).run Desynchronised.dispatcher
      Desynchronised.before).1.ending = none := by
    decide +kernel
  have hcause : ((start 1000 Desynchronised.moment).run Desynchronised.dispatcher
      Desynchronised.before).1.failure? Desynchronised.dispatcher (.read false) =
        some Desynchronised.cause := by
    decide +kernel
  obtain ⟨⟨ids, hascending, hperm, heffects⟩, -, -⟩ :=
    run_fatal_answered Desynchronised.dispatcher 1000 Desynchronised.moment Desynchronised.moment
      Desynchronised.before Desynchronised.later (.read false) Desynchronised.cause hopen hcause
      (Desynchronised.inFlight_eq ▸ Desynchronised.fits)
  have hids : ids = [7, 9] := by
    have hswap : ids.Perm [7, 9] :=
      hperm.trans (Desynchronised.inFlight_eq ▸ List.Perm.swap 7 9 [])
    refine hswap.eq_of_pairwise (fun a b _ _ hab hba => ?_) hascending (by decide)
    exact absurd hba (UInt64.lt_asymm hab)
  have hbefore : (responses ((start 1000 Desynchronised.moment).run Desynchronised.dispatcher
      Desynchronised.before).2).map (fun r => (r.id, r.status)) =
        [(5, .lookupError), (7, .parameterError)] := by
    decide +kernel
  refine ⟨hopen, hcause, ?_⟩
  rw [heffects, hids, responses_append, List.map_append, hbefore]
  rfl

end Connection

end RemoteCall
