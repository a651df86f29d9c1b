import RemoteCall.Client.Session
import RemoteCall.Proofs.Keyed

/-!
# Accounts of a session

The books that a session keeps on its calls. Over any stretch of its life, the calls that waited
before and those that were made are the calls that wait afterwards and those that were resolved.
Every slot was taken by a call of its own under a new generation, and it leaves the table only when
its caller is resolved. Accounts of two stretches that follow each other add up, so it is enough to
keep them for the few things that can happen to the table.
-/

namespace RemoteCall

/-- The call that an effect resolves, with its outcome. -/
def SessionEffect.resolution? : SessionEffect → Option (Nat × CallOutcome)
  | resolve caller outcome => some (caller, outcome)
  | _ => none

/-- The calls that effects resolve, in order. -/
def resolutions (effects : List SessionEffect) : List (Nat × CallOutcome) :=
  effects.filterMap SessionEffect.resolution?

/-- The callers that effects resolve, in order. -/
def resolved (effects : List SessionEffect) : List Nat := (resolutions effects).map (·.1)

/-- The responses by which effects resolve calls, in order. -/
def answers (effects : List SessionEffect) : List Response :=
  (resolutions effects).filterMap fun r => r.2.toOption

/-- What is done later resolves its calls after those that were resolved before. -/
theorem resolutions_append (effects more : List SessionEffect) :
    resolutions (effects ++ more) = resolutions effects ++ resolutions more :=
  List.filterMap_append

/-- So it is for the callers alone. -/
theorem resolved_append (effects more : List SessionEffect) :
    resolved (effects ++ more) = resolved effects ++ resolved more := by
  rw [resolved, resolutions_append, List.map_append]
  rfl

/-- And for the responses alone. -/
theorem answers_append (effects more : List SessionEffect) :
    answers (effects ++ more) = answers effects ++ answers more := by
  rw [answers, resolutions_append, List.filterMap_append]
  rfl

/-- A call by its caller and its request id. -/
abbrev MadeCall := Nat × UInt64

/-- The call of a slot. -/
def Slot.made (slot : Slot) : MadeCall := (slot.caller, slot.requestId)

namespace Session

/-- No two waiting calls have one request id. -/
def Distinct (s : Session) : Prop := (s.slots.map (·.requestId)).Nodup

/-- The waiting calls are that of an id and the others. -/
theorem perm_cons_removeSlot {s : Session} (h : s.Distinct) {id : UInt64} {slot : Slot}
    (hslot : s.slot? id = some slot) : s.slots.Perm (slot :: (s.removeSlot id).slots) :=
  perm_cons_filter_key h hslot

/-- Without a slot of an id there is none to remove. -/
theorem removeSlot_of_none {s : Session} {id : UInt64} (h : s.slot? id = none) :
    s.removeSlot id = s := by
  rw [removeSlot, filter_key_eq_self h]

/-- No slot of a removed id is left. -/
theorem requestId_ne_of_mem_removeSlot {s : Session} {id : UInt64} {slot : Slot}
    (h : slot ∈ (s.removeSlot id).slots) : slot.requestId ≠ id :=
  bne_iff_ne.mp (List.mem_filter.mp h).2

/-- The accounts from one state to a later one, for the calls made in between, the slots that they
took, the responses that arrived and what was done outside. -/
structure Accounts (s s' : Session) (calls : List MadeCall) (taken : List Slot)
    (received : List Response) (effects : List SessionEffect) : Prop where
  /-- No two waiting calls have one request id afterwards. -/
  distinct : s'.Distinct
  /-- Generations grow. -/
  grows : s.lastGeneration ≤ s'.lastGeneration
  /-- Every slot was taken under a generation of this stretch. -/
  fresh : ∀ slot ∈ taken, s.lastGeneration < slot.generation ∧ slot.generation ≤ s'.lastGeneration
  /-- Later slots have later generations. -/
  ordered : taken.Pairwise (·.generation < ·.generation)
  /-- Every slot was taken by a call of its own. -/
  own : (taken.map Slot.made).Sublist calls
  /-- What waits afterwards waited before or took a slot. -/
  kept : s'.slots.Sublist (s.slots ++ taken)
  /-- No call is lost, and none is resolved twice. -/
  conserved : (s.slots.map (·.caller) ++ calls.map (·.1)).Perm
    (s'.slots.map (·.caller) ++ resolved effects)
  /-- A slot that is not there afterwards has had its caller resolved. -/
  released : ∀ slot ∈ s.slots ++ taken, slot ∉ s'.slots → slot.caller ∈ resolved effects
  /-- A response resolves the call of a slot under its own request id. -/
  answered : ∀ caller r, (caller, .ok r) ∈ resolutions effects →
    ∃ slot ∈ s.slots ++ taken, slot.caller = caller ∧ slot.requestId = r.id
  /-- The responses that resolve calls are among those that arrived, one call for each. -/
  arrived : (answers effects).Sublist received

namespace Accounts

variable {s s' s'' : Session} {calls calls' : List MadeCall} {taken taken' : List Slot}
  {received received' : List Response} {effects effects' : List SessionEffect}

/-- Accounts that follow each other add up. -/
theorem trans (h : Accounts s s' calls taken received effects)
    (h' : Accounts s' s'' calls' taken' received' effects') :
    Accounts s s'' (calls ++ calls') (taken ++ taken') (received ++ received')
      (effects ++ effects') where
  distinct := h'.distinct
  grows := Nat.le_trans h.grows h'.grows
  fresh := by
    intro slot hslot
    have hgrows := h.grows
    have hgrows' := h'.grows
    rcases List.mem_append.mp hslot with hslot | hslot
    · have hfresh := h.fresh slot hslot
      omega
    · have hfresh := h'.fresh slot hslot
      omega
  ordered := by
    refine List.pairwise_append.mpr ⟨h.ordered, h'.ordered, fun slot hslot slot' hslot' => ?_⟩
    have hle := (h.fresh slot hslot).2
    have hlt := (h'.fresh slot' hslot').1
    omega
  own := by
    rw [List.map_append]
    exact h.own.append h'.own
  kept := by
    rw [← List.append_assoc]
    exact h'.kept.trans (h.kept.append_right taken')
  conserved := by
    rw [List.map_append, resolved_append, ← List.append_assoc, ← List.append_assoc]
    exact (h.conserved.append_right _).trans ((perm_append_swap _ _ _).trans
      ((h'.conserved.append_right _).trans (perm_append_swap _ _ _)))
  released := by
    intro slot hslot hgone
    rw [resolved_append]
    by_cases hmid : slot ∈ s'.slots
    · exact List.mem_append_right _ (h'.released slot (List.mem_append_left _ hmid) hgone)
    · rw [← List.append_assoc] at hslot
      rcases List.mem_append.mp hslot with hslot | hslot
      · exact List.mem_append_left _ (h.released slot hslot hmid)
      · exact List.mem_append_right _ (h'.released slot (List.mem_append_right _ hslot) hgone)
  answered := by
    intro caller r hr
    rw [resolutions_append] at hr
    rw [← List.append_assoc]
    rcases List.mem_append.mp hr with hr | hr
    · obtain ⟨slot, hslot, hcall⟩ := h.answered caller r hr
      exact ⟨slot, List.mem_append_left _ hslot, hcall⟩
    · obtain ⟨slot, hslot, hcall⟩ := h'.answered caller r hr
      rcases List.mem_append.mp hslot with hslot | hslot
      · exact ⟨slot, List.mem_append_left _ (h.kept.mem hslot), hcall⟩
      · exact ⟨slot, List.mem_append_right _ hslot, hcall⟩
  arrived := by
    rw [answers_append]
    exact h.arrived.append h'.arrived

/-- A stretch in which no slot is taken and some may be given up. -/
theorem untaken (h : s.Distinct) (hlast : s'.lastGeneration = s.lastGeneration)
    (hkept : s'.slots.Sublist s.slots)
    (hconserved : (s.slots.map (·.caller) ++ calls.map (·.1)).Perm
      (s'.slots.map (·.caller) ++ resolved effects))
    (hreleased : ∀ slot ∈ s.slots, slot ∉ s'.slots → slot.caller ∈ resolved effects)
    (hanswered : ∀ caller r, (caller, .ok r) ∈ resolutions effects →
      ∃ slot ∈ s.slots, slot.caller = caller ∧ slot.requestId = r.id)
    (harrived : (answers effects).Sublist received) :
    Accounts s s' calls [] received effects where
  distinct := h.sublist (hkept.map _)
  grows := Nat.le_of_eq hlast.symm
  fresh := fun _ hslot => absurd hslot List.not_mem_nil
  ordered := .nil
  own := List.nil_sublist _
  kept := (List.append_nil s.slots).symm ▸ hkept
  conserved := hconserved
  released := (List.append_nil s.slots).symm ▸ hreleased
  answered := (List.append_nil s.slots).symm ▸ hanswered
  arrived := harrived

/-- What leaves the table and the generations alone and resolves nothing keeps the accounts. -/
theorem quiet (h : s.Distinct) (hslots : s'.slots = s.slots)
    (hlast : s'.lastGeneration = s.lastGeneration) (heffects : resolutions effects = []) :
    Accounts s s' [] [] [] effects := by
  refine untaken h hlast (hslots ▸ .refl _) ?_ (fun slot hslot hgone => ?_) (fun caller r hr => ?_)
    ?_
  · rw [hslots, resolved, heffects]
    exact .refl _
  · exact absurd (hslots ▸ hslot) hgone
  · rw [heffects] at hr
    exact absurd hr List.not_mem_nil
  · rw [answers, heffects]
    exact .slnil

/-- The rest of the state may change. -/
theorem andQuiet (h : Accounts s s' calls taken received effects) (hslots : s''.slots = s'.slots)
    (hlast : s''.lastGeneration = s'.lastGeneration) :
    Accounts s s'' calls taken received effects := by
  have hrest : Accounts s' s'' [] [] [] [] := quiet h.distinct hslots hlast rfl
  have hboth := h.trans hrest
  simpa only [List.append_nil] using hboth

/-- A call that fails at once takes no slot. -/
theorem refuse (h : s.Distinct) (caller : Nat) (id : UInt64) (e : CallError) :
    Accounts s s [(caller, id)] [] [] [.resolve caller (.error e)] := by
  refine untaken h rfl (.refl _) (.refl _) (fun slot hslot hgone => absurd hslot hgone)
    (fun caller' r hr => ?_) .slnil
  cases List.mem_singleton.mp hr

/-- A call takes a slot under the next generation, if no call waits under its id. -/
theorem take (h : s.Distinct) {id : UInt64} (hid : ∀ slot ∈ s.slots, slot.requestId ≠ id)
    (caller : Nat) (hslots : s'.slots = s.slots ++ [⟨id, s.lastGeneration + 1, caller⟩])
    (hlast : s'.lastGeneration = s.lastGeneration + 1) :
    Accounts s s' [(caller, id)] [⟨id, s.lastGeneration + 1, caller⟩] [] [] where
  distinct := by
    rw [Distinct, hslots, List.map_append]
    refine List.nodup_append.mpr ⟨h, List.pairwise_singleton _ _, fun a ha b hb => ?_⟩
    obtain ⟨slot, hslot, rfl⟩ := List.mem_map.mp ha
    rw [List.mem_singleton.mp hb]
    exact hid slot hslot
  grows := by omega
  fresh := by
    intro slot hslot
    rw [List.mem_singleton.mp hslot, hlast]
    exact ⟨Nat.lt_succ_self _, Nat.le_refl _⟩
  ordered := List.pairwise_singleton _ _
  own := .refl _
  kept := by rw [hslots]
  conserved := by
    rw [hslots, List.map_append, List.append_assoc]
    exact .refl _
  released := by
    intro slot hslot hgone
    rw [hslots] at hgone
    exact absurd hslot hgone
  answered := fun caller' r hr => absurd hr List.not_mem_nil
  arrived := .slnil

/-- The call of an id is resolved and its slot removed. -/
theorem release (h : s.Distinct) {id : UInt64} {slot : Slot} (hslot : s.slot? id = some slot)
    (outcome : CallOutcome) (hid : ∀ r, outcome = .ok r → r.id = id) :
    Accounts s (s.removeSlot id) [] [] outcome.toOption.toList
      [.resolve slot.caller outcome] := by
  have hperm := perm_cons_removeSlot h hslot
  refine untaken h rfl List.filter_sublist ?_ (fun slot' hslot' hgone => ?_)
    (fun caller r hr => ?_) ?_
  · rw [List.map_nil, List.append_nil]
    exact (hperm.map _).trans (List.perm_append_singleton slot.caller _).symm
  · rcases List.mem_cons.mp (hperm.mem_iff.mp hslot') with rfl | hmem
    · exact List.mem_singleton.mpr rfl
    · exact absurd hmem hgone
  · cases List.mem_singleton.mp hr
    refine ⟨slot, List.mem_of_find?_eq_some hslot, rfl, ?_⟩
    rw [key_of_find? hslot, hid r rfl]
  · cases outcome with
    | error e => exact .slnil
    | ok r => exact .refl _

/-- The call of an id fails and its slot is removed. -/
theorem fail (h : s.Distinct) {id : UInt64} {slot : Slot} (hslot : s.slot? id = some slot)
    (e : CallError) :
    Accounts s (s.removeSlot id) [] [] [] [.resolve slot.caller (.error e)] :=
  release h hslot (.error e) fun r hr => by cases hr

/-- Failing all slots resolves each of them with the failure. -/
theorem resolutions_failAll (slots : List Slot) (cause : CallError) :
    resolutions (slots.map (fun slot => .resolve slot.caller (.error cause)) ++ [.closed]) =
      slots.map fun slot => (slot.caller, .error cause) := by
  induction slots with
  | nil => rfl
  | cons slot slots ih => exact congrArg ((slot.caller, .error cause) :: ·) ih

/-- Every waiting call fails and the table is emptied. -/
theorem clear (h : s.Distinct) (cause : CallError) (hslots : s'.slots = [])
    (hlast : s'.lastGeneration = s.lastGeneration) :
    Accounts s s' [] [] []
      (s.slots.map (fun slot => .resolve slot.caller (.error cause)) ++ [.closed]) := by
  have hresolutions := resolutions_failAll s.slots cause
  have hresolved : resolved (s.slots.map (fun slot => .resolve slot.caller (.error cause)) ++
      [.closed]) = s.slots.map (·.caller) := by
    rw [resolved, hresolutions, List.map_map]
    rfl
  refine untaken h hlast (hslots ▸ List.nil_sublist _) ?_ (fun slot hslot _ => ?_)
    (fun caller r hr => ?_) ?_
  · rw [hslots, hresolved, List.map_nil, List.append_nil]
    exact .refl _
  · rw [hresolved]
    exact List.mem_map_of_mem hslot
  · rw [hresolutions] at hr
    obtain ⟨slot, _, hslot⟩ := List.mem_map.mp hr
    cases hslot
  · rw [answers, hresolutions, List.filterMap_map]
    exact List.filterMap_eq_nil_iff.mpr (fun slot _ => rfl) ▸ .slnil

/-- More responses may have arrived. -/
theorem mono (h : Accounts s s' calls taken received effects)
    (hsub : received.Sublist received') : Accounts s s' calls taken received' effects :=
  { h with arrived := h.arrived.trans hsub }

end Accounts

end Session

end RemoteCall
