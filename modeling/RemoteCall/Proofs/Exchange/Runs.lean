import RemoteCall.Proofs.Exchange.Steps

/-!
# What a run of an exchange does

The books over all places at which a call can be hold at the start, when no call waits, and every
step keeps them. So they hold after every run.
-/

namespace RemoteCall

variable {m : Type → Type}

namespace Partners

variable {p : Partners m} {x : Exchange} {g g' g'' : Stages m}

/-- Two stretches, one after the other. -/
theorem Advances.trans {made made' : List (Nat × Request)} {settled settled' : List (SettledCall m)}
    {x' x'' : Exchange} {effects effects' : List SessionEffect} {started started' : List (Work m)}
    (h : p.Advances g g' made settled (x', effects, started))
    (h' : p.Advances g' g'' made' settled' (x'', effects', started')) :
    p.Advances g g'' (made ++ made') (settled ++ settled')
      (x'', effects ++ effects', started ++ started') where
  holds := h'.holds
  conserved := by
    classical
    refine List.perm_iff_count.mpr fun call => ?_
    have hcount := h.conserved.count_eq call
    have hcount' := h'.conserved.count_eq call
    simp only [List.map_append, List.count_append] at hcount hcount' ⊢
    omega
  performed := by
    classical
    refine List.perm_iff_count.mpr fun work => ?_
    have hcount := h.performed.count_eq work
    have hcount' := h'.performed.count_eq work
    simp only [List.flatMap_append, List.count_append] at hcount hcount' ⊢
    omega
  resolved := by
    rw [resolutions_append, List.map_append]
    exact congrArg₂ (· ++ ·) h.resolved h'.resolved
  settles := by
    intro t ht
    rcases List.mem_append.mp ht with ht | ht
    · exact h.settles t ht
    · exact h'.settles t ht

/-- A step on its own. -/
theorem Advances.run_one {now : Moment} {e : ExchangeEvent} {settled : List (SettledCall m)}
    (h : p.Advances g g' [] settled (x.step p now e)) :
    p.Advances g g' [] settled (x.run p [(now, e)]) := by
  have hdone : p.Advances g' g' [] [] ((x.step p now e).1, [], []) := .still h.holds rfl rfl
  have hrun := h.trans hdone
  rwa [List.append_nil, List.append_nil] at hrun

namespace Holds

/-- What a step does, whatever it is. -/
theorem step (h : p.Holds x g) (hagreed : p.Agreed) {now : Moment} {e : ExchangeEvent}
    (hadmits : p.Admits now x e) :
    ∃ g' settled, p.Advances g g' e.asked settled (x.step p now e) := by
  cases e with
  | enter caller r =>
    obtain ⟨hfree, body, hbody⟩ := hadmits.request caller r rfl
    obtain ⟨g', hadvances⟩ := h.enter hfree hbody
    exact ⟨g', [], hadvances⟩
  | queue generation =>
    obtain ⟨g', hadvances⟩ := (h.queue generation).exists_advances
    exact ⟨g', [], hadvances⟩
  | write =>
    obtain ⟨g', hadvances⟩ := (h.write hagreed).exists_advances
    exact ⟨g', [], hadvances⟩
  | arrive count => exact ⟨g, [], h.arrive count⟩
  | read =>
    obtain ⟨g', hadvances⟩ := (h.read hagreed hadmits.response).exists_advances
    exact ⟨g', [], hadvances⟩
  | handled ticket =>
    obtain ⟨g', hadvances⟩ := (h.handled hagreed ticket hadmits.response).exists_advances
    exact ⟨g', [], hadvances⟩
  | unbound ticket =>
    obtain ⟨g', hadvances⟩ := (h.unbound hagreed ticket hadmits.response).exists_advances
    exact ⟨g', [], hadvances⟩
  | deliver count =>
    obtain ⟨later, settled, -, hadvances⟩ := h.deliver hagreed count
    exact ⟨_, settled, hadvances⟩

/-- What a run does: the books are kept from step to step. -/
theorem run (h : p.Holds x g) (hagreed : p.Agreed) {events : List (Moment × ExchangeEvent)}
    (hadmits : p.AdmitsRun x events) :
    ∃ g' settled, p.Advances g g' (asked events) settled (x.run p events) := by
  induction events generalizing x g with
  | nil => exact ⟨g, [], .still h rfl rfl⟩
  | cons event rest ih =>
    obtain ⟨now, e⟩ := event
    obtain ⟨hfirst, hrest⟩ := hadmits
    obtain ⟨g', settled, hstep⟩ := h.step hagreed hfirst
    obtain ⟨g'', settled', hrun⟩ := ih hstep.holds hrest
    exact ⟨g'', settled ++ settled', hstep.trans hrun⟩

/-- At the start no call waits. -/
theorem start (p : Partners m) (opened : Moment) : p.Holds (.start p opened) .empty where
  session :=
    { settings := rfl
      codec := rfl
      isOpen := rfl
      isWriting := rfl
      limit := rfl
      settled := Frame.parse_of_short (Nat.succ_pos 5)
      unqueued := rfl
      outbound := rfl
      books := by
        constructor
        case slots => exact .refl []
        case distinct => exact List.nodup_nil
        case generations => exact List.nodup_nil
        case issued => exact fun call hcall => absurd hcall List.not_mem_nil
        case sound => exact fun call hcall => absurd hcall List.not_mem_nil }
  connection :=
    { isOpen := rfl
      limit := rfl
      running := rfl
      accounted := ⟨[], [], .start p.dispatcher.maxFrameSize opened⟩
      runs := fun t ht => absurd ht List.not_mem_nil
      answers := fun a ha => absurd ha List.not_mem_nil }
  up := .start p.dispatcher.maxFrameSize
  down := .start p.settings.maxFrameSize

end Holds

end Partners

end RemoteCall
