import RemoteCall.Client.TimerQueue

/-!
# Timers leave when they are due

A queue keeps its timers in the order of their deadlines, and the wheel never goes beyond the clock.
So at every millisecond exactly the timers leave whose deadlines have come, each once, and those
that stay are all due later. In which order timers of one deadline leave plays no part.
-/

namespace RemoteCall

namespace TimerQueue

variable {τ : Type} {q q' : TimerQueue τ} {timers : List (Timer τ)} {millis now deadline : Nat}
  {task : τ}

/-- One timer more. -/
theorem perm_insertTimer (isFirst : Bool) (t : Timer τ) (timers : List (Timer τ)) :
    (insertTimer isFirst t timers).Perm (t :: timers) := by
  induction timers with
  | nil => exact .refl _
  | cons u rest ih =>
    rw [insertTimer]
    split
    · exact (ih.cons u).trans (.swap t u rest)
    · exact .refl _

/-- Timers in the order of their deadlines. -/
def Sorted (timers : List (Timer τ)) : Prop := timers.Pairwise fun t u => t.due ≤ u.due

/-- A timer is put in where its deadline belongs. -/
theorem Sorted.insertTimer (h : Sorted timers) (isFirst : Bool) (t : Timer τ) :
    Sorted (insertTimer isFirst t timers) := by
  induction timers with
  | nil => exact List.pairwise_singleton _ t
  | cons u rest ih =>
    obtain ⟨hu, hrest⟩ := List.pairwise_cons.mp h
    rw [TimerQueue.insertTimer]
    split
    · rename_i hbefore
      refine List.pairwise_cons.mpr ⟨fun v hv => ?_, ih hrest⟩
      rcases List.mem_cons.mp ((perm_insertTimer isFirst t rest).mem_iff.mp hv) with rfl | hmem
      · rcases Bool.or_eq_true_iff.mp hbefore with hlt | heq
        · exact Nat.le_of_lt (of_decide_eq_true hlt)
        · exact Nat.le_of_eq (beq_iff_eq.mp (Bool.and_eq_true_iff.mp heq).1)
      · exact hu v hmem
    · rename_i hbehind
      have hle : t.due ≤ u.due := by
        refine Nat.le_of_not_lt fun hlt => hbehind ?_
        rw [decide_eq_true hlt, Bool.true_or]
      refine List.pairwise_cons.mpr ⟨fun v hv => ?_, h⟩
      rcases List.mem_cons.mp hv with rfl | hmem
      · exact hle
      · exact Nat.le_trans hle (hu v hmem)

/-- Behind the first timer that is not due none is. -/
theorem Sorted.takeWhile_due (h : Sorted timers) (now : Nat) :
    timers.takeWhile (·.due ≤ now) = timers.filter (·.due ≤ now) ∧
      timers.dropWhile (·.due ≤ now) = timers.filter (now < ·.due) := by
  induction timers with
  | nil => exact ⟨rfl, rfl⟩
  | cons t rest ih =>
    obtain ⟨ht, hrest⟩ := List.pairwise_cons.mp h
    by_cases hdue : t.due ≤ now
    · have hnot : ¬ now < t.due := Nat.not_lt.mpr hdue
      obtain ⟨htake, hdrop⟩ := ih hrest
      simp only [List.takeWhile_cons, List.dropWhile_cons, List.filter_cons, hdue, hnot,
        decide_true, decide_false, if_true, Bool.false_eq_true, if_false]
      exact ⟨congrArg (t :: ·) htake, hdrop⟩
    · have hlater : now < t.due := Nat.lt_of_not_le hdue
      have hnone : rest.filter (·.due ≤ now) = [] := by
        refine List.filter_eq_nil_iff.mpr fun u hu hle => ?_
        have htu := ht u hu
        have hunow := of_decide_eq_true hle
        omega
      have hall : rest.filter (now < ·.due) = rest := by
        refine List.filter_eq_self.mpr fun u hu => decide_eq_true ?_
        exact Nat.lt_of_lt_of_le hlater (ht u hu)
      simp only [List.takeWhile_cons, List.dropWhile_cons, List.filter_cons, hdue, hlater,
        decide_true, decide_false, if_true, Bool.false_eq_true, if_false, hnone, hall,
        and_self]

/-- A queue at a millisecond of the clock. -/
structure Waiting (q : TimerQueue τ) (millis : Nat) : Prop where
  sorted : Sorted q.timers
  /-- All timers are due later. -/
  later : ∀ t ∈ q.timers, millis < t.due
  /-- The wheel has not gone beyond the clock. -/
  reached : q.reached ≤ millis

/-- In an empty queue nothing is due. -/
theorem Waiting.empty (millis : Nat) : (empty : TimerQueue τ).Waiting millis :=
  ⟨.nil, fun _ ht => absurd ht List.not_mem_nil, Nat.zero_le millis⟩

/-- A deadline that the wheel has not passed stays as it is. -/
theorem timers_of_insert? (hreached : q.reached ≤ deadline)
    (hq : q.insert? deadline task = some q') :
    q'.reached = q.reached ∧
      ∃ isFirst, q'.timers = insertTimer isFirst ⟨deadline, task⟩ q.timers := by
  have hdue : max deadline q.reached = deadline := Nat.max_eq_left hreached
  rw [insert?, hdue] at hq
  split at hq
  · cases hq
  · cases hq
    exact ⟨rfl, _, rfl⟩

/-- A task with a later deadline waits for it. -/
theorem Waiting.insert (h : q.Waiting millis) (hlater : millis < deadline)
    (hq : q.insert? deadline task = some q') :
    q'.Waiting millis ∧ q'.timers.Perm (⟨deadline, task⟩ :: q.timers) := by
  have hpassed : q.reached ≤ deadline := Nat.le_trans h.reached (Nat.le_of_lt hlater)
  obtain ⟨hreached, isFirst, htimers⟩ := timers_of_insert? hpassed hq
  have hperm := perm_insertTimer isFirst ⟨deadline, task⟩ q.timers
  rw [← htimers] at hperm
  refine ⟨⟨htimers ▸ h.sorted.insertTimer isFirst _, fun t ht => ?_, hreached ▸ h.reached⟩, hperm⟩
  rcases List.mem_cons.mp (hperm.mem_iff.mp ht) with rfl | hmem
  · exact hlater
  · exact h.later t hmem

/-- A slot starts no later than what stands in it. -/
theorem slotStart_le (level millis : Nat) : slotStart level millis ≤ millis := by
  rw [slotStart, Nat.shiftRight_eq_div_pow, Nat.shiftLeft_eq]
  exact Nat.div_mul_le_self millis _

/-- Timers that have left have not moved the wheel beyond the clock. -/
theorem reached_passed_le (hq : q.reached ≤ now) (hleft : ∀ t ∈ timers, t.due ≤ now) :
    (q.passed timers).reached ≤ now := by
  unfold passed
  split
  · exact hq
  · rename_i t ht
    have hmem := (List.mem_filter.mp (List.mem_of_getLast? ht)).1
    have hstart := slotStart_le 1 t.due
    have hdue := hleft t hmem
    exact Nat.max_le.mpr ⟨hq, Nat.le_trans hstart hdue⟩

/-- Neither does the way to the next deadline. -/
theorem reached_turn_le (hq : q.reached ≤ now) (due : Nat) : (q.turn now due).reached ≤ now := by
  unfold turn
  dsimp only
  split
  · exact slotStart_le _ now
  · exact hq

/-- The timers leave that stand before the first one that is not due. -/
theorem poll_eq (q : TimerQueue τ) (now : Nat) :
    (q.poll now).1 = (q.timers.takeWhile (·.due ≤ now)).map (·.task) ∧
      (q.poll now).2.timers = q.timers.dropWhile (·.due ≤ now) := by
  unfold poll
  generalize q.timers.dropWhile (·.due ≤ now) = waiting
  cases waiting with
  | nil => exact ⟨rfl, rfl⟩
  | cons t rest =>
    dsimp only
    split
    · exact ⟨rfl, rfl⟩
    · exact ⟨rfl, rfl⟩

/-- The wheel does not go beyond the clock. -/
theorem reached_poll_le (hq : q.reached ≤ now) : (q.poll now).2.reached ≤ now := by
  have hpassed : (q.passed (q.timers.takeWhile (·.due ≤ now))).reached ≤ now :=
    reached_passed_le hq fun t ht => of_decide_eq_true (List.all_eq_true.mp List.all_takeWhile t ht)
  unfold poll
  generalize q.timers.dropWhile (·.due ≤ now) = waiting
  cases waiting with
  | nil => exact hpassed
  | cons t rest =>
    dsimp only
    split
    · exact hpassed
    · exact reached_turn_le hpassed t.due

/-- At a millisecond the timers leave that are due, and the others stay. -/
theorem Waiting.poll (h : q.Waiting millis) (hle : millis ≤ now) :
    (q.poll now).1 = (q.timers.filter (·.due ≤ now)).map (·.task) ∧
      (q.poll now).2.timers = q.timers.filter (now < ·.due) ∧ (q.poll now).2.Waiting now := by
  obtain ⟨htake, hdrop⟩ := h.sorted.takeWhile_due now
  obtain ⟨hleft, hstay⟩ := q.poll_eq now
  rw [htake] at hleft
  rw [hdrop] at hstay
  have hreached : (q.poll now).2.reached ≤ now := reached_poll_le (Nat.le_trans h.reached hle)
  refine ⟨hleft, hstay, hstay ▸ h.sorted.filter _, fun t ht => ?_, hreached⟩
  rw [hstay] at ht
  exact of_decide_eq_true (List.mem_filter.mp ht).2

end TimerQueue

end RemoteCall
