import Mathlib.Data.List.Find
import RemoteCall.Proofs.Value.Turning

/-!
# What is kept of elements that compare equal

Arranging sorts a list, stably, and drops each element that compares equal to the one kept before
it. Comparing equal is symmetric and transitive, and the elements of which it holds stand together
when they are sorted, so of all that compare equal to a value exactly one is kept: the foremost of
them, which is the first in the given order of those that are sorted first. What compares equal to
nothing is kept.
-/

namespace RemoteCall

namespace Comparator

variable {c : Comparator} {a b d : Value}

/-- Whether a comparator finds two values equal. -/
def equates (c : Comparator) (a b : Value) : Bool := c.compare? a b == some .eq

/-- The key by which a comparator finds a value equal to others, if it does to any. -/
def key? : Comparator → Value → Option (List Int)
  | natural, v => v.compareKey?
  | reverse, v => v.compareKey?
  | allEqual, _ => some []
  | usingToString, v => some (textKey v.text)
  | custom _, _ => none

/-- A comparator finds values equal when it compares them as equal. -/
theorem equates_iff : c.equates a b = true ↔ c.compare? a b = some .eq := beq_iff_eq

/-- Values that a comparator finds equal have one key. -/
theorem compare?_eq_some_eq_iff (c : Comparator) (a b : Value) :
    c.compare? a b = some .eq ↔ ∃ k, c.key? a = some k ∧ c.key? b = some k := by
  cases c with
  | natural => exact Value.compare?_eq_some_eq_iff a b
  | reverse => exact reverse_compare?_iff.trans (Value.compare?_eq_some_eq_iff a b)
  | allEqual => exact ⟨fun _ => ⟨[], rfl, rfl⟩, fun _ => rfl⟩
  | usingToString =>
    rw [compare?, compareText_eq, Option.some.injEq, Std.LawfulEqCmp.compare_eq_iff_eq]
    constructor
    · exact fun h => ⟨_, rfl, congrArg some h.symm⟩
    · rintro ⟨k, ha, hb⟩
      exact (Option.some.inj ha).trans (Option.some.inj hb).symm
  | custom name =>
    constructor
    · intro h
      cases h
    · rintro ⟨k, ha, -⟩
      cases ha

/-- What a comparator finds equal it finds equal the other way round. -/
theorem equates_symm (h : c.equates a b = true) : c.equates b a = true :=
  equates_iff.mpr (c.compare?_eq_symm (equates_iff.mp h))

/-- Values that a comparator finds equal to one value it finds equal. -/
theorem equates_trans (h : c.equates a b = true) (h' : c.equates b d = true) :
    c.equates a d = true := by
  obtain ⟨k, ha, hb⟩ := (c.compare?_eq_some_eq_iff a b).mp (equates_iff.mp h)
  obtain ⟨k', hb', hd⟩ := (c.compare?_eq_some_eq_iff b d).mp (equates_iff.mp h')
  rw [hb] at hb'
  cases hb'
  exact equates_iff.mpr ((c.compare?_eq_some_eq_iff a d).mpr ⟨k, ha, hd⟩)

/-- Values that a comparator finds equal it finds equal to the same values. -/
theorem equates_congr (h : c.equates a b = true) (x : Value) : c.equates x a = c.equates x b :=
  Bool.eq_iff_iff.mpr ⟨fun hx => equates_trans hx h, fun hx => equates_trans hx (equates_symm h)⟩

/-- What compares equal to anything compares equal to itself. -/
theorem equates_self (h : c.equates a b = true) : c.equates a a = true :=
  equates_trans h (equates_symm h)

end Comparator

section DropTies

variable {α : Type} {tie : α → α → Bool} {p : α → Bool}

/-- The first element that passes a test which ties pass together is kept after an element. -/
theorem find?_dropTies_go (hp : ∀ a b, tie a b = true → p a = p b) (last : α) (xs : List α) :
    (last :: dropTies.go tie last xs).find? p = (last :: xs).find? p := by
  induction xs generalizing last with
  | nil => rfl
  | cons y ys ih =>
    rw [dropTies.go]
    split
    case isTrue htie =>
      rw [ih last, List.find?_cons, List.find?_cons, List.find?_cons, ← hp last y htie]
      cases p last <;> rfl
    case isFalse => rw [List.find?_cons, ih y, ← List.find?_cons]

/-- The first element that passes a test which ties pass together is kept. -/
theorem find?_dropTies (hp : ∀ a b, tie a b = true → p a = p b) (xs : List α) :
    (dropTies tie xs).find? p = xs.find? p := by
  cases xs with
  | nil => rfl
  | cons x xs => exact find?_dropTies_go hp x xs

/-- What ties with nothing is kept after an element. -/
theorem mem_dropTies_go {a last : α} {xs : List α} (ha : ∀ b, tie b a = false) (h : a ∈ xs) :
    a ∈ dropTies.go tie last xs := by
  induction xs generalizing last with
  | nil => exact absurd h List.not_mem_nil
  | cons y ys ih =>
    rw [dropTies.go]
    rcases List.mem_cons.mp h with rfl | h
    · rw [ha last]
      exact List.mem_cons_self
    · split
      · exact ih h
      · exact List.mem_cons_of_mem y (ih h)

/-- What ties with nothing is kept. -/
theorem mem_dropTies {a : α} {xs : List α} (ha : ∀ b, tie b a = false) (h : a ∈ xs) :
    a ∈ dropTies tie xs := by
  cases xs with
  | nil => exact absurd h List.not_mem_nil
  | cons x xs =>
    rcases List.mem_cons.mp h with rfl | h
    · exact List.mem_cons_self
    · exact List.mem_cons_of_mem x (mem_dropTies_go ha h)

end DropTies

section Foremost

variable {α : Type} {c : Comparator} {key : α → Value} {p : α → Bool} {xs : List α}

/-- Whether an element passes a test and no element that passes is sorted before it. -/
def isForemost (c : Comparator) (key : α → Value) (p : α → Bool) (xs : List α) (a : α) : Bool :=
  p a && xs.all fun b => !p b || c.sortOrder (key a) (key b) != .gt

/-- The first of the elements that pass a test and that none of those is sorted before. -/
def foremost? (c : Comparator) (key : α → Value) (p : α → Bool) (xs : List α) : Option α :=
  xs.find? (isForemost c key p xs)

/-- An element is foremost if it passes the test and none that passes is sorted before it. -/
theorem isForemost_iff {a : α} : isForemost c key p xs a = true ↔
    p a = true ∧ ∀ b ∈ xs, p b = true → c.sortOrder (key a) (key b) ≠ .gt := by
  simp only [isForemost, Bool.and_eq_true, List.all_eq_true, Bool.or_eq_true, Bool.not_eq_true',
    bne_iff_ne]
  refine and_congr_right fun _ => forall₂_congr fun b _ => ?_
  rw [← Bool.not_eq_true, imp_iff_not_or]

/-- An element that does not pass is not foremost. -/
theorem isForemost_eq_false {a : α} (h : p a = false) : isForemost c key p xs a = false := by
  rw [isForemost, h, Bool.false_and]

/-- The foremost element is the first that passes exactly if no other that passes is sorted before
that one. -/
theorem foremost?_eq_find?_iff : foremost? c key p xs = xs.find? p ↔
    ∀ a, xs.find? p = some a → ∀ b ∈ xs, p b = true → c.sortOrder (key a) (key b) ≠ .gt := by
  constructor
  · intro h a ha
    rw [ha] at h
    have hforemost : isForemost c key p xs a = true := List.find?_some h
    exact (isForemost_iff.mp hforemost).2
  · intro h
    cases hx : xs.find? p with
    | none =>
      have hnone := List.find?_eq_none.mp hx
      exact List.find?_eq_none.mpr fun a ha hforemost => hnone a ha (isForemost_iff.mp hforemost).1
    | some a =>
      obtain ⟨hpa, front, back, hxs, hfront⟩ := List.find?_eq_some_iff_append.mp hx
      have hleast := isForemost_iff.mpr ⟨hpa, h a hx⟩
      refine List.find?_eq_some_iff_append.mpr ⟨hleast, front, back, hxs, fun b hb => ?_⟩
      have hpb : p b = false := by simpa using hfront b hb
      rw [isForemost_eq_false hpb, Bool.not_false]

/-- No element of a sorted list that passes is sorted before the first that does. -/
theorem Sorted.sortOrder_of_find? {a : α} (h : Sorted c key xs) (ha : xs.find? p = some a) :
    ∀ b ∈ xs, p b = true → c.sortOrder (key a) (key b) ≠ .gt := by
  obtain ⟨-, front, back, rfl, hfront⟩ := List.find?_eq_some_iff_append.mp ha
  intro b hb hpb
  rcases List.mem_append.mp hb with hb | hb
  · have hfail : p b = false := by simpa using hfront b hb
    exact absurd hpb (Bool.eq_false_iff.mp hfail)
  · have hback : Sorted c key (a :: back) := h.sublist (List.sublist_append_right _ _)
    rcases List.mem_cons.mp hb with rfl | hb
    · exact Ordering.ne_gt_iff_isLE.mpr Std.ReflCmp.isLE_rfl
    · exact (List.pairwise_cons.mp hback).1 b hb

/-- Foremost are the elements that pass and tie with one that is. -/
theorem isForemost_eq_tied {a : α} (ha : a ∈ xs) (h : isForemost c key p xs a = true) :
    ∀ b ∈ xs, isForemost c key p xs b = decide (tied c key a b = true ∧ p b = true) := by
  obtain ⟨hpa, hleast⟩ := isForemost_iff.mp h
  intro b hb
  rw [Bool.eq_iff_iff, isForemost_iff, decide_eq_true_eq, tied_iff]
  constructor
  · rintro ⟨hpb, hleast'⟩
    exact ⟨Comparator.sortOrder_antisymm (hleast b hb hpb) (hleast' a ha hpa), hpb⟩
  · rintro ⟨htie, hpb⟩
    have hba : (c.sortOrder (key b) (key a)).isLE :=
      Ordering.isLE_of_eq_eq (Std.OrientedCmp.eq_symm htie)
    refine ⟨hpb, fun d hd hpd => Ordering.ne_gt_iff_isLE.mpr ?_⟩
    exact Std.TransCmp.isLE_trans hba (Ordering.ne_gt_iff_isLE.mp (hleast d hd hpd))

/-- Sorting puts the foremost element first among those that pass. -/
theorem find?_mergeSort (xs : List α) :
    (xs.mergeSort fun a b => c.sortOrder (key a) (key b) != .gt).find? p =
      foremost? c key p xs := by
  have hsorted : Sorted c key (xs.mergeSort fun a b => c.sortOrder (key a) (key b) != .gt) :=
    (List.pairwise_mergeSort c.sortOrder_trans c.sortOrder_total xs).imp fun h => bne_iff_ne.mp h
  cases hx : (xs.mergeSort fun a b => c.sortOrder (key a) (key b) != .gt).find? p with
  | none =>
    have hnone := List.find?_eq_none.mp hx
    exact (List.find?_eq_none.mpr fun a ha hforemost =>
      hnone a (List.mem_mergeSort.mpr ha) (isForemost_iff.mp hforemost).1).symm
  | some a =>
    have hpa := List.find?_some hx
    have hforemost : isForemost c key p xs a = true := isForemost_iff.mpr ⟨hpa, fun b hb =>
      hsorted.sortOrder_of_find? hx b (List.mem_mergeSort.mpr hb)⟩
    have hmem : a ∈ xs := List.mem_mergeSort.mp (List.mem_of_find?_eq_some hx)
    -- sorting keeps the order of the elements that tie with the one found
    rw [foremost?, List.find?_congr (isForemost_eq_tied hmem hforemost), ← List.find?_filter,
      ← filter_mergeSort, List.find?_filter]
    obtain ⟨-, front, back, he, hfront⟩ := List.find?_eq_some_iff_append.mp hx
    refine (List.find?_eq_some_iff_append.mpr ⟨?_, front, back, he, fun b hb => ?_⟩).symm
    · exact decide_eq_true ⟨tied_iff.mpr Std.ReflCmp.compare_self, hpa⟩
    · have hpb : p b = false := by simpa using hfront b hb
      simp only [hpb, Bool.false_eq_true, and_false, decide_false, Bool.not_false]

/-- Where an element passes one is foremost. -/
theorem exists_foremost? {a : α} (c : Comparator) (key : α → Value) (ha : a ∈ xs)
    (hpa : p a = true) : ∃ b, foremost? c key p xs = some b := by
  rw [← find?_mergeSort]
  exact Option.isSome_iff_exists.mp (List.find?_isSome.mpr ⟨a, List.mem_mergeSort.mpr ha, hpa⟩)

/-- Of the elements that pass a test which those that compare equal pass together, the first that is
kept is the foremost. -/
theorem find?_arrange (hp : ∀ a b, c.equates (key a) (key b) = true → p a = p b) (xs : List α) :
    (arrange c key xs).find? p = foremost? c key p xs := by
  unfold arrange
  split
  case isTrue hc =>
    -- a custom comparator sorts nothing, so the first that passes is foremost
    refine (foremost?_eq_find?_iff.mpr fun a _ b _ _ => ?_).symm
    rw [c.sortOrder_of_isCustom hc]
    decide
  case isFalse => exact (find?_dropTies (fun a b => hp a b) _).trans (find?_mergeSort xs)

/-- Of elements no two of which pass at most one is left. -/
theorem filter_eq_toList_find? (h : xs.Pairwise fun a b => ¬(p a = true ∧ p b = true)) :
    xs.filter p = (xs.find? p).toList := by
  induction xs with
  | nil => rfl
  | cons x xs ih =>
    obtain ⟨hx, hxs⟩ := List.pairwise_cons.mp h
    rw [List.filter_cons, List.find?_cons]
    cases hpx : p x with
    | false => exact ih hxs
    | true =>
      have hnone : xs.filter p = [] := List.filter_eq_nil_iff.mpr fun b hb hpb => hx b hb ⟨hpx, hpb⟩
      rw [if_pos rfl, hnone]
      rfl

/-- Exactly one is kept of the elements that compare equal to a value: the foremost of them. -/
theorem filter_arrange (c : Comparator) (key : α → Value) (xs : List α) (x : Value) :
    (arrange c key xs).filter (fun a => c.equates x (key a)) =
      (foremost? c key (fun a => c.equates x (key a)) xs).toList := by
  have huntied := (arrange_arranged c key xs).pairwise_untied
  rw [filter_eq_toList_find? (huntied.imp fun hab h => ?_)]
  · rw [find?_arrange fun a b hab => Comparator.equates_congr hab x]
  · have hequal := Comparator.equates_trans (Comparator.equates_symm h.1) h.2
    exact hab (Comparator.equates_iff.mp hequal)

/-- Kept is what compares equal to nothing, and the foremost of what compares equal. -/
theorem mem_arrange_iff {a : α} : a ∈ arrange c key xs ↔ a ∈ xs ∧
    (c.equates (key a) (key a) = true →
      foremost? c key (fun b => c.equates (key a) (key b)) xs = some a) := by
  constructor
  · refine fun h => ⟨mem_of_mem_arrange h, fun hself => ?_⟩
    have hfilter : a ∈ (arrange c key xs).filter fun b => c.equates (key a) (key b) :=
      List.mem_filter.mpr ⟨h, hself⟩
    rw [filter_arrange] at hfilter
    exact Option.mem_toList.mp hfilter
  · rintro ⟨hmem, hforemost⟩
    by_cases hself : c.equates (key a) (key a) = true
    · rw [← find?_arrange fun b d hbd => Comparator.equates_congr hbd (key a)] at hforemost
      exact List.mem_of_find?_eq_some (hforemost hself)
    · have htie : ∀ b, c.equates (key b) (key a) = false := fun b =>
        Bool.eq_false_iff.mpr fun h => hself (Comparator.equates_self (Comparator.equates_symm h))
      unfold arrange
      split
      · exact hmem
      · exact mem_dropTies htie (List.mem_mergeSort.mpr hmem)

/-- Every element is kept or compares equal to one that is. -/
theorem mem_arrange_or_equates {a : α} (h : a ∈ xs) :
    a ∈ arrange c key xs ∨ ∃ k ∈ arrange c key xs, c.equates (key a) (key k) = true := by
  by_cases hself : c.equates (key a) (key a) = true
  · obtain ⟨k, hk⟩ := exists_foremost? c key (p := fun b => c.equates (key a) (key b)) h hself
    rw [← find?_arrange fun b d hbd => Comparator.equates_congr hbd (key a)] at hk
    have hequal := List.find?_some hk
    exact .inr ⟨k, List.mem_of_find?_eq_some hk, hequal⟩
  · exact .inl (mem_arrange_iff.mpr ⟨h, fun h' => absurd h' hself⟩)

/-- Arranging takes no element more often than it is given. -/
theorem arrange_subperm (c : Comparator) (key : α → Value) (xs : List α) :
    (arrange c key xs).Subperm xs := by
  unfold arrange
  split
  · exact List.Subperm.refl xs
  · exact (dropTies_sublist _ _).subperm.trans (List.mergeSort_perm _ _).subperm

end Foremost

end RemoteCall
